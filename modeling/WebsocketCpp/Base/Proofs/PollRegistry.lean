import Mathlib.Algebra.Group.Nat.Defs
import Mathlib.Data.List.Nodup
import WebsocketCpp.Base.SelectPoller
import WebsocketCpp.Misc.Heap

/-!
# The registry of the poller

The array and the map of a `SelectPoller` are kept by separate code. `pollRegistry`: they always agree
with each other and with the handlers that live, so that every descriptor `poll` reports is found.
-/

namespace WebsocketCpp

/-! ## The array -/

theorem map_fd_updatePollFd (fd : Int) (events : BitVec 16) (l : List PollFd) :
    (updatePollFd fd events l).map PollFd.fd = l.map PollFd.fd := by
  induction l with
  | nil => rfl
  | cons it rest ih =>
      rw [updatePollFd]
      split
      · rfl
      · rw [List.map_cons, List.map_cons, ih]

/-- What is in the array after the entry of a descriptor has been set. -/
theorem mem_updatePollFd {fd : Int} {events : BitVec 16} {l : List PollFd} (h : (l.map PollFd.fd).Nodup)
    {it : PollFd} (hit : it ∈ updatePollFd fd events l) :
    it.fd = fd ∧ it.events = events ∨ it.fd ≠ fd ∧ it ∈ l := by
  induction l with
  | nil => cases hit
  | cons it' rest ih =>
      rcases List.nodup_cons.mp h with ⟨hnot, hrest⟩
      rw [updatePollFd] at hit
      split at hit
      · rename_i hfd
        rcases List.mem_cons.mp hit with rfl | hit
        · exact .inl ⟨hfd, rfl⟩
        · refine .inr ⟨fun heq => hnot ?_, List.mem_cons_of_mem _ hit⟩
          rw [hfd, ← heq]
          exact List.mem_map_of_mem hit
      · rename_i hfd
        rcases List.mem_cons.mp hit with rfl | hit
        · exact .inr ⟨hfd, List.mem_cons_self ..⟩
        · exact (ih hrest hit).imp_right fun ⟨hne, hmem⟩ => ⟨hne, List.mem_cons_of_mem _ hmem⟩

/-- The other entries are as they were. -/
theorem filter_updatePollFd (fd : Int) (events : BitVec 16) (l : List PollFd) :
    (updatePollFd fd events l).filter (·.fd ≠ fd) = l.filter (·.fd ≠ fd) := by
  induction l with
  | nil => rfl
  | cons it rest ih =>
      rw [updatePollFd]
      split
      · rename_i hfd
        simp [hfd]
      · rw [List.filter_cons, List.filter_cons, ih]

/-- The first entry of a descriptor is its only one. -/
theorem eraseP_fd_eq_filter {l : List PollFd} (h : (l.map PollFd.fd).Nodup) (fd : Int) :
    l.eraseP (fun it => it.fd = fd) = l.filter (·.fd ≠ fd) := by
  induction l with
  | nil => rfl
  | cons it rest ih =>
      rcases List.nodup_cons.mp h with ⟨hnot, hrest⟩
      by_cases hfd : it.fd = fd
      · rw [List.eraseP_cons_of_pos (by simpa using hfd), List.filter_cons_of_neg (by simpa using hfd)]
        refine (List.filter_eq_self.mpr ?_).symm
        intro it' hit'
        refine decide_eq_true fun heq => hnot ?_
        rw [hfd, ← heq]
        exact List.mem_map_of_mem hit'
      · rw [List.eraseP_cons_of_neg (by simpa using hfd), List.filter_cons_of_pos (by simpa using hfd),
          ih hrest]

/-- `poll` writes to `revents` alone. -/
theorem map_fd_polled {s : SelectPoller} {revents : List (BitVec 16)}
    (h : revents.length = s.pollFds.length) : (s.polled revents).map PollFd.fd = s.pollFds.map PollFd.fd := by
  have hfst : (s.pollFds.zip revents).map Prod.fst = s.pollFds := List.map_fst_zip (by omega)
  conv_rhs => rw [← hfst]
  rw [SelectPoller.polled, ← List.map_uncurry_zip_eq_zipWith, List.map_map, List.map_map]
  rfl

theorem exists_of_mem_polled {s : SelectPoller} {revents : List (BitVec 16)} {it : PollFd}
    (hit : it ∈ s.polled revents) :
    ∃ it' ∈ s.pollFds, it.fd = it'.fd ∧ it.events = it'.events ∧ it.revents ∈ revents := by
  rw [SelectPoller.polled, ← List.map_uncurry_zip_eq_zipWith] at hit
  rcases List.mem_map.mp hit with ⟨⟨it', revent⟩, hmem, rfl⟩
  rcases List.of_mem_zip hmem with ⟨hit', hrevent⟩
  exact ⟨it', hit', rfl, rfl, hrevent⟩

/-! ## What is watched -/

namespace EventHandler

variable {Callback : Type} (ev : EventHandler Callback)

/-- Nothing but reading and writing is watched for. -/
def Watched : Prop := ev.events.toNat < 2 ^ 3

variable {ev}

theorem watched_zero (h : ev.events = 0) : ev.Watched := by
  rw [Watched, h]
  decide

theorem watched_of_or (h : ev.Watched) {mask : BitVec 32} (hmask : mask.toNat < 2 ^ 3) :
    ({ ev with events := ev.events ||| mask } : EventHandler Callback).Watched := by
  rw [Watched, BitVec.toNat_or]
  exact Nat.or_lt_two_pow h hmask

theorem watched_of_and (h : ev.Watched) (mask : BitVec 32) :
    ({ ev with events := ev.events &&& mask } : EventHandler Callback).Watched := by
  rw [Watched, BitVec.toNat_and]
  exact Nat.lt_of_le_of_lt Nat.and_le_left h

/-- `short` is wide enough. -/
theorem signExtend_setWidth (h : ev.Watched) : (ev.events.setWidth 16).signExtend 32 = ev.events := by
  have hsmall : ev.events.toNat < 2 ^ 3 := h
  have hnat : (ev.events.setWidth 16).toNat = ev.events.toNat := by
    rw [BitVec.toNat_setWidth]
    omega
  have hmsb : (ev.events.setWidth 16).msb = false := by
    rw [BitVec.msb_eq_false_iff_two_mul_lt, hnat]
    omega
  rw [BitVec.signExtend_eq_setWidth_of_msb_false hmsb]
  apply BitVec.eq_of_toNat_eq
  rw [BitVec.toNat_setWidth, hnat]
  omega

end EventHandler

/-! ## The search for what is active -/

section Dispatch

variable {Callback : Type}

/-- The handlers of the descriptors that something has happened to are found, in the order of the
array, and get their `revents_`; the others stay as they are. -/
structure Dispatched (evHandlers : Int → Option Nat) (pollFds : List PollFd)
    (handlers handlers' : Nat → Option (FdHandler Callback)) (found : List Nat) : Prop where
  found_eq : found.map some = (pollFds.filter (·.revents ≠ 0)).map fun it => evHandlers it.fd
  nodup : found.Nodup
  revents : ∀ it ∈ pollFds, it.revents ≠ 0 → ∀ p h, evHandlers it.fd = some p → handlers p = some h →
    handlers' p = some { h with ev := h.ev.setRevents (it.revents.signExtend 32) }
  others : ∀ p, p ∉ found → handlers' p = handlers p

/-- The entry has a handler that lives. -/
def Handled (evHandlers : Int → Option Nat) (handlers : Nat → Option (FdHandler Callback))
    (it : PollFd) : Prop :=
  ∃ p h, evHandlers it.fd = some p ∧ p ≠ 0 ∧ handlers p = some h ∧ h.fd = it.fd

variable {evHandlers : Int → Option Nat} {handlers handlers' : Nat → Option (FdHandler Callback)}
variable {it : PollFd} {rest pollFds : List PollFd} {found : List Nat} {p : Nat} {h : FdHandler Callback}

theorem Dispatched.nil (hquiet : ∀ it ∈ pollFds, it.revents = 0) :
    Dispatched evHandlers pollFds handlers handlers [] where
  found_eq := by
    rw [List.filter_eq_nil_iff.mpr fun it hit => by simp [hquiet it hit]]
    rfl
  nodup := .nil
  revents it hit hne := absurd (hquiet it hit) hne
  others _ _ := rfl

/-- Nothing has happened to the first descriptor. -/
theorem Dispatched.cons_quiet (hd : Dispatched evHandlers rest handlers handlers' found)
    (hquiet : it.revents = 0) : Dispatched evHandlers (it :: rest) handlers handlers' found where
  found_eq := by rw [List.filter_cons_of_neg (by simpa using hquiet), hd.found_eq]
  nodup := hd.nodup
  revents := List.forall_mem_cons.mpr ⟨fun hne => absurd hquiet hne, hd.revents⟩
  others := hd.others

/-- What is found belongs to an entry. -/
theorem Dispatched.exists_of_mem (hd : Dispatched evHandlers pollFds handlers handlers' found)
    {q : Nat} (hq : q ∈ found) : ∃ it ∈ pollFds, it.revents ≠ 0 ∧ evHandlers it.fd = some q := by
  have hmem : some q ∈ found.map some := List.mem_map_of_mem hq
  rw [hd.found_eq] at hmem
  rcases List.mem_map.mp hmem with ⟨it, hit, heq⟩
  rcases List.mem_filter.mp hit with ⟨hit, hne⟩
  exact ⟨it, hit, of_decide_eq_true hne, heq⟩

/-- Descriptors and `events_` are left alone. -/
theorem Dispatched.map_handlers (hd : Dispatched evHandlers pollFds handlers handlers' found)
    (hhandled : ∀ it ∈ pollFds, Handled evHandlers handlers it) (q : Nat) :
    (handlers' q).map (fun h => (h.fd, h.ev.events)) =
      (handlers q).map fun h => (h.fd, h.ev.events) := by
  by_cases hq : q ∈ found
  · rcases hd.exists_of_mem hq with ⟨it, hit, hne, hfind⟩
    rcases hhandled it hit with ⟨q', h', hfind', -, hhandlers', -⟩
    rcases Option.some.inj (hfind.symm.trans hfind') with rfl
    rw [hd.revents it hit hne q h' hfind hhandlers', hhandlers']
    rfl
  · rw [hd.others q hq]

/-- A handler belongs to one descriptor. -/
theorem ne_of_handled (hnot : it.fd ∉ rest.map PollFd.fd) (hhandlers : handlers p = some h)
    (hfd : h.fd = it.fd) {it' : PollFd} (hit' : it' ∈ rest) {q : Nat} {h' : FdHandler Callback}
    (hhandlers' : handlers q = some h') (hfd' : h'.fd = it'.fd) : q ≠ p := by
  rintro rfl
  rcases Option.some.inj (hhandlers.symm.trans hhandlers') with rfl
  apply hnot
  rw [hfd.symm.trans hfd']
  exact List.mem_map_of_mem hit'

/-- The first descriptor is reported to its handler. -/
theorem Dispatched.cons_found (hnot : it.fd ∉ rest.map PollFd.fd)
    (hhandled : ∀ it' ∈ rest, Handled evHandlers handlers it') (hne : it.revents ≠ 0)
    (hp : evHandlers it.fd = some p) (hhandlers : handlers p = some h) (hfd : h.fd = it.fd)
    (hd : Dispatched evHandlers rest (Function.update handlers p
      (some { h with ev := h.ev.setRevents (it.revents.signExtend 32) })) handlers' found) :
    Dispatched evHandlers (it :: rest) handlers handlers' (p :: found) := by
  have hother : ∀ it' ∈ rest, ∀ q, evHandlers it'.fd = some q → q ≠ p := by
    intro it' hit' q hq
    rcases hhandled it' hit' with ⟨q', h', hq', -, hhandlers', hfd'⟩
    rcases Option.some.inj (hq.symm.trans hq') with rfl
    exact ne_of_handled hnot hhandlers hfd hit' hhandlers' hfd'
  have hfresh : p ∉ found := by
    intro hmem
    rcases hd.exists_of_mem hmem with ⟨it', hit', -, hq⟩
    exact hother it' hit' p hq rfl
  refine ⟨?_, List.nodup_cons.mpr ⟨hfresh, hd.nodup⟩, List.forall_mem_cons.mpr ⟨?_, ?_⟩, ?_⟩
  · rw [List.filter_cons_of_pos (by simpa using hne), List.map_cons, List.map_cons, hp, hd.found_eq]
  · intro _ q h' hq hh'
    rcases Option.some.inj (hp.symm.trans hq) with rfl
    rcases Option.some.inj (hhandlers.symm.trans hh') with rfl
    rw [hd.others p hfresh, Function.update_self]
  · intro it' hit' hne' q h' hq hh'
    exact hd.revents it' hit' hne' q h' hq ((Function.update_of_ne (hother it' hit' q hq) ..).trans hh')
  · intro q hq
    rw [hd.others q (List.not_mem_of_not_mem_cons hq),
      Function.update_of_ne (List.ne_of_not_mem_cons hq)]

theorem toInt_pos {revents : BitVec 16} (hnonneg : 0 ≤ revents.toInt) (hne : revents ≠ 0) :
    0 < revents.toInt := by
  refine Int.lt_iff_le_and_ne.mpr ⟨hnonneg, fun hzero => hne ?_⟩
  exact BitVec.toInt_inj.mp (hzero.symm.trans BitVec.toInt_zero.symm)

theorem countP_revents_cons_of_ne (hne : it.revents ≠ 0) :
    ((it :: rest).countP fun it => it.revents ≠ 0) = (rest.countP fun it => it.revents ≠ 0) + 1 :=
  List.countP_cons_of_pos (by simpa using hne)

/-- The search comes to its end before the array does only when nothing else has happened. -/
theorem findActiveEvHandlers_ok (hnodup : (pollFds.map PollFd.fd).Nodup)
    (hhandled : ∀ it ∈ pollFds, Handled evHandlers handlers it)
    (hnonneg : ∀ it ∈ pollFds, 0 ≤ it.revents.toInt) (activeEvents : List Nat) :
    ∃ handlers' found, SelectPoller.findActiveEvHandlers evHandlers pollFds
      (pollFds.countP fun it => it.revents ≠ 0) handlers activeEvents =
        .ok (handlers', activeEvents ++ found) ∧
      Dispatched evHandlers pollFds handlers handlers' found := by
  induction pollFds generalizing handlers activeEvents with
  | nil => exact ⟨handlers, [], by simp [SelectPoller.findActiveEvHandlers], .nil (by simp)⟩
  | cons it rest ih =>
      rcases List.nodup_cons.mp hnodup with ⟨hnot, hrest⟩
      rcases List.forall_mem_cons.mp hhandled with ⟨hit, hhandled⟩
      rcases List.forall_mem_cons.mp hnonneg with ⟨hnonneg', hnonneg⟩
      rw [SelectPoller.findActiveEvHandlers]
      by_cases hzero : ((it :: rest).countP fun it => it.revents ≠ 0) = 0
      · rw [if_pos hzero]
        have hquiet := List.countP_eq_zero.mp hzero
        exact ⟨handlers, [], by simp, .nil fun it' hit' => by simpa using hquiet it' hit'⟩
      · rw [if_neg hzero]
        by_cases hne : it.revents = 0
        · rw [if_neg (by simp [hne]), List.countP_cons_of_neg (by simpa using hne)]
          rcases ih hrest hhandled hnonneg activeEvents with ⟨handlers', found, heq, hd⟩
          exact ⟨handlers', found, heq, hd.cons_quiet hne⟩
        · rcases hit with ⟨p, h, hp, hnull, hhandlers, hfd⟩
          rw [if_pos (toInt_pos hnonneg' hne), countP_revents_cons_of_ne hne]
          simp only [hp, hhandlers, if_neg hnull, if_pos hfd, Nat.add_sub_cancel]
          have hstill : ∀ it' ∈ rest, Handled evHandlers (Function.update handlers p
              (some { h with ev := h.ev.setRevents (it.revents.signExtend 32) })) it' := by
            intro it' hit'
            rcases hhandled it' hit' with ⟨q, h', hq, hnull', hhandlers', hfd'⟩
            have hqp := ne_of_handled hnot hhandlers hfd hit' hhandlers' hfd'
            exact ⟨q, h', hq, hnull', (Function.update_of_ne hqp ..).trans hhandlers', hfd'⟩
          rcases ih hrest hstill hnonneg (activeEvents ++ [p]) with ⟨handlers', found, heq, hd⟩
          refine ⟨handlers', p :: found, ?_, hd.cons_found hnot hhandled hne hp hhandlers hfd⟩
          rw [heq, List.append_assoc]
          rfl

end Dispatch

namespace PollUse

variable {Callback : Type} {u u' : PollUse Callback} {p : Nat} {h : FdHandler Callback}

/-- Array and map have the same descriptors, each once, and lead to the handlers that live. -/
structure Registered (u : PollUse Callback) : Prop where
  nodup : (u.poller.pollFds.map PollFd.fd).Nodup
  keys : ∀ fd, fd ∈ u.poller.pollFds.map PollFd.fd ↔ ∃ p, u.poller.evHandlers fd = some p
  live : ∀ fd p, u.poller.evHandlers fd = some p → ∃ h, u.handlers p = some h ∧ h.fd = fd ∧
    ∀ it ∈ u.poller.pollFds, it.fd = fd → it.events.signExtend 32 = h.ev.events

/-- With what the handlers keep to: one for a descriptor, and no null pointer. -/
structure Sound (u : PollUse Callback) : Prop extends Registered u where
  unique : ∀ p q h h', u.handlers p = some h → u.handlers q = some h' → h.fd = h'.fd → p = q
  nonnull : ∀ p h, u.handlers p = some h → p ≠ 0
  watched : ∀ p h, u.handlers p = some h → h.ev.Watched

theorem object_ok (hp : u.handlers p = some h) : u.object p = .ok h := by
  rw [object, hp]

/-- The registry after a live handler has registered itself with other events. -/
theorem Sound.registered_update (hs : u.Sound) (hp : u.handlers p = some h) {ev : EventHandler Callback}
    (hev : ev.Watched) {pollFds : List PollFd} (hnodup : (pollFds.map PollFd.fd).Nodup)
    (hkeys : ∀ fd, fd ∈ pollFds.map PollFd.fd ↔ fd = h.fd ∨ fd ∈ u.poller.pollFds.map PollFd.fd)
    (hentries : ∀ it ∈ pollFds, it.fd = h.fd ∧ it.events = ev.events.setWidth 16 ∨
      it.fd ≠ h.fd ∧ it ∈ u.poller.pollFds) (activeList : List Nat) :
    Registered ⟨⟨pollFds, Function.update u.poller.evHandlers h.fd (some p)⟩,
      Function.update u.handlers p (some { h with ev := ev }), activeList⟩ where
  nodup := hnodup
  keys fd := by
    change _ ↔ ∃ q, Function.update u.poller.evHandlers h.fd (some p) fd = some q
    rw [hkeys, hs.keys]
    by_cases hfd : fd = h.fd
    · subst hfd
      exact iff_of_true (.inl rfl) ⟨p, Function.update_self ..⟩
    · rw [Function.update_of_ne hfd]
      exact or_iff_right hfd
  live fd q hq := by
    change ∃ h', Function.update u.handlers p _ q = some h' ∧ _
    rcases Heap.update_some_iff.mp hq with ⟨rfl, rfl⟩ | ⟨hfd, hq⟩
    · refine ⟨_, Function.update_self .., rfl, ?_⟩
      intro it hit hfd
      rcases hentries it hit with ⟨-, hevents⟩ | ⟨hne, -⟩
      · rw [hevents]
        exact EventHandler.signExtend_setWidth hev
      · exact absurd hfd hne
    · rcases hs.live fd q hq with ⟨h', hh', hfd', hevents⟩
      have hqp : q ≠ p := by
        rintro rfl
        rcases Option.some.inj (hp.symm.trans hh') with rfl
        exact hfd hfd'.symm
      refine ⟨h', (Function.update_of_ne hqp ..).trans hh', hfd', ?_⟩
      intro it hit hitfd
      rcases hentries it hit with ⟨heq, -⟩ | ⟨-, hmem⟩
      · exact absurd (hitfd.symm.trans heq) hfd
      · exact hevents it hmem hitfd

/-- A descriptor that is not registered is appended. -/
theorem Sound.registered_append (hs : u.Sound) (hp : u.handlers p = some h) {ev : EventHandler Callback}
    (hev : ev.Watched) (hnone : u.poller.evHandlers h.fd = none) (activeList : List Nat) :
    Registered ⟨⟨u.poller.pollFds ++ [⟨h.fd, ev.events.setWidth 16, 0⟩],
      Function.update u.poller.evHandlers h.fd (some p)⟩,
      Function.update u.handlers p (some { h with ev := ev }), activeList⟩ := by
  have hnot : h.fd ∉ u.poller.pollFds.map PollFd.fd := by
    intro hmem
    rcases (hs.keys _).mp hmem with ⟨q, hq⟩
    cases hnone.symm.trans hq
  apply hs.registered_update hp hev
  · rw [List.map_append]
    exact hs.nodup.append (List.nodup_singleton _) (by simpa using hnot)
  · intro fd
    simp [or_comm]
  · intro it hit
    rcases List.mem_append.mp hit with hit | hit
    · refine .inr ⟨fun hfd => hnot ?_, hit⟩
      exact hfd ▸ List.mem_map_of_mem hit
    · rw [List.mem_singleton.mp hit]
      exact .inl ⟨rfl, rfl⟩

/-- The entry of a descriptor that is registered is changed. -/
theorem Sound.registered_updatePollFd (hs : u.Sound) (hp : u.handlers p = some h)
    {ev : EventHandler Callback} (hev : ev.Watched) (hsome : u.poller.evHandlers h.fd = some p)
    (activeList : List Nat) :
    Registered ⟨⟨updatePollFd h.fd (ev.events.setWidth 16) u.poller.pollFds,
      Function.update u.poller.evHandlers h.fd (some p)⟩,
      Function.update u.handlers p (some { h with ev := ev }), activeList⟩ := by
  have hmem : h.fd ∈ u.poller.pollFds.map PollFd.fd := (hs.keys _).mpr ⟨p, hsome⟩
  apply hs.registered_update hp hev
  · rw [map_fd_updatePollFd]
    exact hs.nodup
  · intro fd
    rw [map_fd_updatePollFd]
    exact ⟨.inr, fun hfd => hfd.elim (· ▸ hmem) id⟩
  · intro it hit
    exact mem_updatePollFd hs.nodup hit

/-- The handlers after one of them has got other events. -/
theorem Sound.update (hs : u.Sound) (hp : u.handlers p = some h) {ev : EventHandler Callback}
    (hev : ev.Watched) {poller : SelectPoller} {activeList : List Nat}
    (hreg : Registered ⟨poller, Function.update u.handlers p (some { h with ev := ev }), activeList⟩) :
    Sound ⟨poller, Function.update u.handlers p (some { h with ev := ev }), activeList⟩ := by
  have hbefore : ∀ q h', Function.update u.handlers p (some { h with ev := ev }) q = some h' →
      ∃ h₀, u.handlers q = some h₀ ∧ h'.fd = h₀.fd ∧ h'.ev.Watched := by
    intro q h' hh'
    rcases Heap.update_some_iff.mp hh' with ⟨rfl, rfl⟩ | ⟨-, hh'⟩
    · exact ⟨h, hp, rfl, hev⟩
    · exact ⟨h', hh', rfl, hs.watched q h' hh'⟩
  refine ⟨hreg, ?_, ?_, ?_⟩
  · intro q r h₁ h₂ hh₁ hh₂ hfd
    rcases hbefore q h₁ hh₁ with ⟨h₁', hh₁', hfd₁, -⟩
    rcases hbefore r h₂ hh₂ with ⟨h₂', hh₂', hfd₂, -⟩
    exact hs.unique q r h₁' h₂' hh₁' hh₂' (hfd₁.symm.trans (hfd.trans hfd₂))
  · intro q h' hh'
    rcases hbefore q h' hh' with ⟨h₀, hh₀, -⟩
    exact hs.nonnull q h₀ hh₀
  · intro q h' hh'
    rcases hbefore q h' hh' with ⟨h₀, -, -, hwatched⟩
    exact hwatched

/-- A registered descriptor leads to the one live handler that has it. -/
theorem Sound.evHandlers_eq (hs : u.Sound) (hp : u.handlers p = some h) {q : Nat}
    (hq : u.poller.evHandlers h.fd = some q) : q = p := by
  rcases hs.live _ _ hq with ⟨h', hh', hfd, -⟩
  exact hs.unique q p h' h hh' hp hfd

/-- `update()` of a live handler. -/
theorem update_ok (hs : u.Sound) (hp : u.handlers p = some h)
    {f : EventHandler Callback → EventHandler Callback} (hf : (f h.ev).Watched) :
    ∃ pollFds, u.update p f = .ok ⟨⟨pollFds, Function.update u.poller.evHandlers h.fd (some p)⟩,
        Function.update u.handlers p (some { h with ev := f h.ev }), u.activeList⟩ ∧
      Sound ⟨⟨pollFds, Function.update u.poller.evHandlers h.fd (some p)⟩,
        Function.update u.handlers p (some { h with ev := f h.ev }), u.activeList⟩ ∧
      pollFds.filter (·.fd ≠ h.fd) = u.poller.pollFds.filter (·.fd ≠ h.fd) := by
  have hupdate : u.update p f = (u.poller.registerEvHandler p { h with ev := f h.ev }).bind
      fun poller => .ok ⟨poller, Function.update u.handlers p (some { h with ev := f h.ev }),
        u.activeList⟩ := by
    rw [PollUse.update, object_ok hp]
    rfl
  rw [hupdate, SelectPoller.registerEvHandler, if_neg (hs.nonnull p h hp)]
  cases hfind : u.poller.evHandlers h.fd with
  | none =>
      refine ⟨u.poller.pollFds ++ [⟨h.fd, (f h.ev).events.setWidth 16, 0⟩], rfl,
        hs.update hp hf (hs.registered_append hp hf hfind _), ?_⟩
      simp
  | some q =>
      rcases hs.evHandlers_eq hp hfind with rfl
      have hsame : Function.update u.poller.evHandlers h.fd (some q) = u.poller.evHandlers :=
        Function.update_eq_self_iff.mpr hfind.symm
      refine ⟨updatePollFd h.fd ((f h.ev).events.setWidth 16) u.poller.pollFds, ?_,
        hs.update hp hf (hs.registered_updatePollFd hp hf hfind _), filter_updatePollFd ..⟩
      rw [hsame]
      rfl

/-- `delete event` on a live handler, registered or not. -/
theorem destruct_ok (hs : u.Sound) (hp : u.handlers p = some h) :
    u.destruct p = .ok ⟨⟨u.poller.pollFds.filter (·.fd ≠ h.fd),
      Function.update u.poller.evHandlers h.fd none⟩, Function.update u.handlers p none, u.activeList⟩ := by
  have hnone : h.ev.disableAll.Watched := EventHandler.watched_zero rfl
  rcases update_ok hs hp hnone with ⟨pollFds, hupdate, hsound, hfilter⟩
  have hnodup : (pollFds.map PollFd.fd).Nodup := hsound.nodup
  rw [destruct, hupdate]
  simp only [bind, Except.bind]
  rw [object_ok (Function.update_self ..)]
  simp only [SelectPoller.removeEvHandler, Function.update_self, eraseP_fd_eq_filter hnodup, hfilter,
    Function.update_idem]

theorem sound_destruct (hs : u.Sound) (hp : u.handlers p = some h) :
    Sound ⟨⟨u.poller.pollFds.filter (·.fd ≠ h.fd), Function.update u.poller.evHandlers h.fd none⟩,
      Function.update u.handlers p none, u.activeList⟩ where
  nodup := hs.nodup.sublist (List.filter_sublist.map _)
  keys fd := by
    change fd ∈ List.map _ (List.filter _ _) ↔ ∃ q, Function.update u.poller.evHandlers h.fd none fd = some q
    simp only [Heap.update_none_iff, exists_and_left, ← hs.keys]
    simp only [List.mem_map, List.mem_filter, decide_eq_true_eq]
    constructor
    · rintro ⟨it, ⟨hit, hne⟩, rfl⟩
      exact ⟨hne, it, hit, rfl⟩
    · rintro ⟨hne, it, hit, rfl⟩
      exact ⟨it, ⟨hit, hne⟩, rfl⟩
  live fd q hq := by
    rcases Heap.update_none_iff.mp hq with ⟨hfd, hq⟩
    rcases hs.live fd q hq with ⟨h', hh', hfd', hevents⟩
    refine ⟨h', Heap.update_none_iff.mpr ⟨?_, hh'⟩, hfd', ?_⟩
    · rintro rfl
      rcases Option.some.inj (hp.symm.trans hh') with rfl
      exact hfd hfd'.symm
    · intro it hit
      exact hevents it (List.mem_filter.mp hit).1
  unique q r h₁ h₂ hh₁ hh₂ :=
    hs.unique q r h₁ h₂ (Heap.update_none_iff.mp hh₁).2 (Heap.update_none_iff.mp hh₂).2
  nonnull q h' hh' := hs.nonnull q h' (Heap.update_none_iff.mp hh').2
  watched q h' hh' := hs.watched q h' (Heap.update_none_iff.mp hh').2

theorem sound_construct (hs : u.Sound) {fd : Int} (hnull : p ≠ 0) (hfree : u.handlers p = none)
    (hfd : ∀ q h, u.handlers q = some h → h.fd ≠ fd) :
    Sound { u with handlers := Function.update u.handlers p (some ⟨fd, .new⟩) } where
  nodup := hs.nodup
  keys := hs.keys
  live fd' q hq := by
    rcases hs.live fd' q hq with ⟨h', hh', hlive⟩
    exact ⟨h', Heap.update_of_free hfree hh' _, hlive⟩
  unique q r h₁ h₂ hh₁ hh₂ heq := by
    rcases Heap.update_some_iff.mp hh₁ with ⟨rfl, rfl⟩ | ⟨-, hq⟩ <;>
      rcases Heap.update_some_iff.mp hh₂ with ⟨rfl, rfl⟩ | ⟨-, hr⟩
    · rfl
    · exact absurd heq.symm (hfd r h₂ hr)
    · exact absurd heq (hfd q h₁ hq)
    · exact hs.unique q r h₁ h₂ hq hr heq
  nonnull q h' hh' := by
    rcases Heap.update_some_iff.mp hh' with ⟨rfl, -⟩ | ⟨-, hh'⟩
    · exact hnull
    · exact hs.nonnull q h' hh'
  watched q h' hh' := by
    rcases Heap.update_some_iff.mp hh' with ⟨-, rfl⟩ | ⟨-, hh'⟩
    · exact EventHandler.watched_zero rfl
    · exact hs.watched q h' hh'

/-! ## Polling -/

theorem handled_polled (hs : u.Registered) (hnonnull : ∀ p h, u.handlers p = some h → p ≠ 0)
    {revents : List (BitVec 16)} (hrevents : u.Answers revents) {it : PollFd}
    (hit : it ∈ u.poller.polled revents) : Handled u.poller.evHandlers u.handlers it := by
  have hmem : it.fd ∈ u.poller.pollFds.map PollFd.fd :=
    map_fd_polled hrevents.1 ▸ List.mem_map_of_mem hit
  rcases (hs.keys _).mp hmem with ⟨p, hp⟩
  rcases hs.live _ _ hp with ⟨h, hh, hfd, -⟩
  exact ⟨p, h, hp, hnonnull p h hh, hh, hfd⟩

/-- Whatever `poll` answers, the search finds what is active. -/
theorem dispatch_ok (hs : u.Registered) (hnonnull : ∀ p h, u.handlers p = some h → p ≠ 0)
    {revents : List (BitVec 16)} (hrevents : u.Answers revents) (activeEvents : List Nat) :
    ∃ handlers' found, SelectPoller.findActiveEvHandlers u.poller.evHandlers (u.poller.polled revents)
      ((u.poller.polled revents).countP fun it => it.revents ≠ 0) u.handlers activeEvents =
        .ok (handlers', activeEvents ++ found) ∧
      Dispatched u.poller.evHandlers (u.poller.polled revents) u.handlers handlers' found := by
  have hmap := map_fd_polled hrevents.1
  refine findActiveEvHandlers_ok (hmap ▸ hs.nodup)
    (fun it hit => handled_polled hs hnonnull hrevents hit) ?_ activeEvents
  intro it hit
  rcases exists_of_mem_polled hit with ⟨-, -, -, -, hmem⟩
  exact hrevents.2 _ hmem

/-- `poll` changes neither the descriptors nor what they are watched for. -/
theorem sound_poll (hs : u.Sound) {revents : List (BitVec 16)} (hrevents : u.Answers revents) :
    ∃ u', u.poll revents = .ok u' ∧ u'.Sound := by
  rcases dispatch_ok hs.toRegistered hs.nonnull hrevents [] with ⟨handlers', found, hfind, hd⟩
  have hmap := map_fd_polled hrevents.1
  have hsame : ∀ q h', handlers' q = some h' →
      ∃ h, u.handlers q = some h ∧ h.fd = h'.fd ∧ h.ev.events = h'.ev.events := by
    intro q h' hh'
    have heq := hd.map_handlers (fun it hit => handled_polled hs.toRegistered hs.nonnull hrevents hit) q
    rw [hh'] at heq
    rcases Option.map_eq_some_iff.mp heq.symm with ⟨h, hh, hpair⟩
    exact ⟨h, hh, congrArg Prod.fst hpair, congrArg Prod.snd hpair⟩
  refine ⟨{ u with
    poller.pollFds := u.poller.polled revents, handlers := handlers', activeList := [] ++ found },
    by rw [poll, hfind]; rfl, ⟨hmap ▸ hs.nodup, fun fd => hmap ▸ hs.keys fd, fun fd q hq => ?_⟩,
    fun q r h₁ h₂ hh₁ hh₂ hfd => ?_, fun q h' hh' => ?_, fun q h' hh' => ?_⟩
  · rcases hs.live fd q hq with ⟨h, hh, hfd, hevents⟩
    have heq := hd.map_handlers (fun it hit => handled_polled hs.toRegistered hs.nonnull hrevents hit) q
    rw [hh] at heq
    rcases Option.map_eq_some_iff.mp heq with ⟨h', hh', hpair⟩
    refine ⟨h', hh', (congrArg Prod.fst hpair).trans hfd, ?_⟩
    intro it hit hitfd
    rcases exists_of_mem_polled hit with ⟨it', hit', hfd', hevents', -⟩
    rw [hevents', hevents it' hit' (hfd'.symm.trans hitfd)]
    exact (congrArg Prod.snd hpair).symm
  · rcases hsame q h₁ hh₁ with ⟨h₁', hh₁', hfd₁, -⟩
    rcases hsame r h₂ hh₂ with ⟨h₂', hh₂', hfd₂, -⟩
    exact hs.unique q r h₁' h₂' hh₁' hh₂' (hfd₁.trans (hfd.trans hfd₂.symm))
  · rcases hsame q h' hh' with ⟨h, hh, -⟩
    exact hs.nonnull q h hh
  · rcases hsame q h' hh' with ⟨h, hh, -, hevents⟩
    have hwatched := hs.watched q h hh
    rwa [EventHandler.Watched, hevents] at hwatched

/-! ## Runs -/

theorem sound_update (hs : u.Sound) (hp : u.handlers p = some h)
    {f : EventHandler Callback → EventHandler Callback} (hf : (f h.ev).Watched) :
    ∃ u', u.update p f = .ok u' ∧ u'.Sound := by
  rcases update_ok hs hp hf with ⟨pollFds, hupdate, hsound, -⟩
  exact ⟨_, hupdate, hsound⟩

theorem step_spec (hs : u.Sound) {a : PollStep} (ha : u.Allowed a) :
    ∃ u', u.apply a = .ok u' ∧ u'.Sound := by
  cases a with
  | construct p fd => exact ⟨_, rfl, sound_construct hs ha.1 ha.2.1 ha.2.2⟩
  | enableRead p =>
      rcases ha with ⟨h, hp⟩
      exact sound_update hs hp (EventHandler.watched_of_or (hs.watched p h hp) (by decide))
  | disableRead p =>
      rcases ha with ⟨h, hp⟩
      exact sound_update hs hp (EventHandler.watched_of_and (hs.watched p h hp) _)
  | enableWrite p =>
      rcases ha with ⟨h, hp⟩
      exact sound_update hs hp (EventHandler.watched_of_or (hs.watched p h hp) (by decide))
  | disableWrite p =>
      rcases ha with ⟨h, hp⟩
      exact sound_update hs hp (EventHandler.watched_of_and (hs.watched p h hp) _)
  | disableAll p =>
      rcases ha with ⟨h, hp⟩
      exact sound_update hs hp (EventHandler.watched_zero rfl)
  | destruct p =>
      rcases ha with ⟨h, hp⟩
      exact ⟨_, destruct_ok hs hp, sound_destruct hs hp⟩
  | poll revents => exact sound_poll hs ha

theorem sound_new : (new : PollUse Callback).Sound where
  nodup := .nil
  keys _ := by simp [new, SelectPoller.new]
  live _ _ h := by cases h
  unique _ _ _ _ h := by cases h
  nonnull _ _ h := by cases h
  watched _ _ h := by cases h

theorem sound_invariant : (pollMachine Callback).Invariant Sound := by
  intro u a u' hs ha hok
  rcases step_spec hs ha with ⟨u'', happly, hsound⟩
  exact Except.ok.inj (happly.symm.trans hok) ▸ hsound

theorem succeeds_sound : (pollMachine Callback).Succeeds Sound := by
  intro u a hs ha
  rcases step_spec hs ha with ⟨u', happly, -⟩
  exact ⟨u', happly⟩

end PollUse

/-- However handlers come, change and go, the registry is consistent, the end of a handler takes its
entries with it and no others, and whatever `poll` reports is dispatched. -/
theorem pollRegistry {Callback : Type} {steps : List PollStep}
    (hlegal : (pollMachine Callback).Legal .new steps) :
    ∃ u, ((pollMachine Callback).run .new steps).result = .ok u ∧ u.Registered ∧
      (∀ p h, u.handlers p = some h → (u.step (.destruct p)).result = .ok
        { u with
          poller := ⟨u.poller.pollFds.filter (·.fd ≠ h.fd), Function.update u.poller.evHandlers h.fd none⟩
          handlers := Function.update u.handlers p none }) ∧
      ∀ revents, u.Answers revents → ∀ activeEvents, ∃ handlers' found,
        SelectPoller.findActiveEvHandlers u.poller.evHandlers (u.poller.polled revents)
          ((u.poller.polled revents).countP fun it => it.revents ≠ 0) u.handlers activeEvents =
            .ok (handlers', activeEvents ++ found) ∧
          Dispatched u.poller.evHandlers (u.poller.polled revents) u.handlers handlers' found := by
  obtain ⟨u, hu⟩ := PollUse.sound_invariant.exists_run PollUse.succeeds_sound PollUse.sound_new hlegal
  have hsound := PollUse.sound_invariant.run PollUse.sound_new hlegal hu
  refine ⟨u, hu, hsound.toRegistered, fun p h hp => PollUse.destruct_ok hsound hp, ?_⟩
  intro revents hrevents activeEvents
  exact PollUse.dispatch_ok hsound.toRegistered hsound.nonnull hrevents activeEvents

/-- Three handlers, of which the second is deleted between two polls. -/
def threeHandlers : List PollStep :=
  [.construct 1 3, .construct 2 4, .construct 5 7, .enableRead 1, .enableRead 2, .enableWrite 5,
    .poll [1, 0, 4], .destruct 2, .poll [0, 4]]

theorem threeHandlers_legal : (pollMachine Unit).Legal .new threeHandlers := by
  refine Machine.legal_cons ⟨by decide, rfl, nofun⟩ rfl ?_
  refine Machine.legal_cons ⟨by decide, rfl, ?_⟩ rfl ?_
  · intro q h hq
    rcases q with _ | _ | q
    · cases hq
    · rcases Option.some.inj hq
      decide
    · cases hq
  refine Machine.legal_cons ⟨by decide, rfl, ?_⟩ rfl ?_
  · intro q h hq
    rcases q with _ | _ | _ | q
    · cases hq
    · rcases Option.some.inj hq
      decide
    · rcases Option.some.inj hq
      decide
    · cases hq
  refine Machine.legal_cons ⟨_, rfl⟩ rfl ?_
  refine Machine.legal_cons ⟨_, rfl⟩ rfl ?_
  refine Machine.legal_cons ⟨_, rfl⟩ rfl ?_
  refine Machine.legal_cons ⟨rfl, by simp⟩ rfl ?_
  refine Machine.legal_cons ⟨_, rfl⟩ rfl ?_
  exact Machine.legal_cons ⟨rfl, by simp⟩ rfl trivial

theorem pollRegistry_threeHandlers : ∃ u, ((pollMachine Unit).run .new threeHandlers).result = .ok u ∧
    u.Registered ∧
    (u.step (.destruct 1)).result = .ok
      { u with
        poller := ⟨u.poller.pollFds.filter (·.fd ≠ 3), Function.update u.poller.evHandlers 3 none⟩
        handlers := Function.update u.handlers 1 none } ∧
    ∃ handlers' found, SelectPoller.findActiveEvHandlers u.poller.evHandlers (u.poller.polled [1, 4])
        ((u.poller.polled [1, 4]).countP fun it => it.revents ≠ 0) u.handlers [] = .ok (handlers', found) ∧
      Dispatched u.poller.evHandlers (u.poller.polled [1, 4]) u.handlers handlers' found := by
  rcases pollRegistry threeHandlers_legal with ⟨u, hu, hregistered, hdestruct, hdispatched⟩
  have hleft : (∃ h, u.handlers 1 = some h ∧ h.fd = 3) ∧ u.poller.pollFds.length = 2 := by
    rcases Except.ok.inj hu
    exact ⟨⟨_, rfl, rfl⟩, rfl⟩
  rcases hleft with ⟨⟨h, hh, hfd⟩, hlen⟩
  rcases hdispatched [1, 4] ⟨hlen.symm, by simp⟩ [] with ⟨handlers', found, hfound, hcalled⟩
  refine ⟨u, hu, hregistered, ?_, handlers', found, hfound, hcalled⟩
  rw [hdestruct 1 h hh, hfd]

end WebsocketCpp
