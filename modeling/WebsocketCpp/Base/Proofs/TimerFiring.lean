import WebsocketCpp.Base.Proofs.TimerRuns

/-!
# When timers fire

`timerFiring`: as long as the longest timer, which the constructor adds, is not due, an event runs
exactly the timers that are due, each once; it queues the repeating ones again and no other, and
timers that have fired once or have been cancelled never come back.
-/

namespace WebsocketCpp

open TimerQueue (csMaxTimer)

/-- A repeating timer that is due gets a valid time. -/
def TimerQueue.ValidRestarts (q : TimerQueue) (evtime : Timestamp) (restarts : Nat → Restart) : Prop :=
  ∀ e ∈ q.timerLists, e.first ≤ evtime → ∀ tm, q.heap e.second = some tm → tm.brepeat = true →
    (tm.restartTimer (restarts e.second)).expiration.valid

namespace TimerUse

/-- Every timer is added once at most, and no event comes after the longest timer. -/
def UsedOnce (t0 : Timestamp) (u : TimerUse) : TimerStep → Prop
  | .addTimer p _ => p ∈ u.pending ∧ ∃ tm, u.queue.heap p = some tm ∧ tm.expiration.valid
  | .eventRead evtime _ restarts _ =>
    evtime < t0.addSeconds csMaxTimer ∧ u.queue.ValidRestarts evtime restarts
  | a => u.Allowed a

end TimerUse

/-- The queue constructed at `t0`. -/
def timerMachine (t0 : Timestamp) : Machine TimerUse TimerStep TimerEvent ObjectFault where
  step := TimerUse.step
  Allowed := TimerUse.UsedOnce t0

/-- In no run from here is the timer in the queue again, or run. -/
def Gone (t0 : Timestamp) (u : TimerUse) (index : Nat) : Prop :=
  ∀ steps, (timerMachine t0).Legal u steps →
    (∀ p, .run p index ∉ ((timerMachine t0).run u steps).out) ∧
    ∀ u', ((timerMachine t0).run u steps).result = .ok u' → ¬u'.queue.Queued index

/-- What `eventRead` does to the timers in the queue. -/
structure FiresExactly (t0 : Timestamp) (u : TimerUse) (evtime : Timestamp)
    (restarts : Nat → Restart) (out : List TimerEvent) (u' : TimerUse) : Prop where
  once : out.Nodup
  ran : ∀ o, o ∈ out ↔ ∃ e ∈ u.queue.timerLists, e.first ≤ evtime ∧
    ∃ tm, u.queue.heap e.second = some tm ∧ o = .run e.second tm.index
  oneShot : ∀ e ∈ u.queue.timerLists, e.first ≤ evtime → ∀ tm, u.queue.heap e.second = some tm →
    tm.brepeat = false → Gone t0 u' tm.index
  repeating : ∀ e ∈ u.queue.timerLists, e.first ≤ evtime → ∀ tm, u.queue.heap e.second = some tm →
    tm.brepeat = true → u'.queue.heap e.second = some (tm.restartTimer (restarts e.second)) ∧
      ∀ x, x ∈ u'.queue.timerLists ∧ x.second = e.second ↔
        x = ⟨(tm.restartTimer (restarts e.second)).expiration, e.second⟩
  later : ∀ e ∈ u.queue.timerLists, evtime < e.first →
    e ∈ u'.queue.timerLists ∧ u'.queue.heap e.second = u.queue.heap e.second

/-- The entries are copies of the timers, no timer occurs twice, an event fires exactly what it
should, and a cancellation removes the entry of the timer in the id, which is gone then. -/
structure FiringExact (t0 : Timestamp) (u : TimerUse) : Prop where
  copies : ∀ e ∈ u.queue.timerLists, ∃ tm, u.queue.heap e.second = some tm ∧ e.first = tm.expiration
  noTwice : (u.queue.timerLists.toList.map TimerEntity.second).Nodup
  fires : ∀ evtime expired restarts clock, u.UsedOnce t0 (.eventRead evtime expired restarts clock) →
    ∃ out u', u.step (.eventRead evtime expired restarts clock) = ⟨out, .ok u'⟩ ∧
      FiresExactly t0 u evtime restarts out u'
  removed : ∀ id clock, u.UsedOnce t0 (.delTimerInLoop id clock) →
    ∃ out u', u.step (.delTimerInLoop id clock) = ⟨out, .ok u'⟩ ∧
      (∀ e, e ∈ u'.queue.timerLists ↔ e ∈ u.queue.timerLists ∧ e.second ≠ id.tm) ∧
      ∀ e ∈ u.queue.timerLists, e ∉ u'.queue.timerLists → ∀ tm, u.queue.heap e.second = some tm →
        Gone t0 u' tm.index

namespace TimerUse

variable {t0 : Timestamp} {u u' : TimerUse} {a : TimerStep} {out : List TimerEvent}

/-- The longest timer is in the queue, and no id leads to it. -/
def HasSentinel (t0 : Timestamp) (u : TimerUse) : Prop :=
  ∃ p, ⟨t0.addSeconds csMaxTimer, p⟩ ∈ u.queue.timerLists ∧ ∀ id index, (id, index) ∈ u.issued → id.tm ≠ p

theorem UsedOnce.allowed (h : u.Good) (ha : u.UsedOnce t0 a) : u.Allowed a := by
  cases a with
  | addTimer p clock => exact ⟨(h.pending p ha.1).2, ha.2⟩
  | eventRead => trivial
  | newTimer | addTimerAt | delTimerInLoop => exact ha

theorem UsedOnce.addsOnce (ha : u.UsedOnce t0 a) : u.AddsOnce a := by
  cases a with
  | addTimer => exact ha.1
  | _ => trivial

/-- A timer that is added to the queue is not the sentinel. -/
theorem HasSentinel.addTimer (h : u.HasSentinel t0) {p : Nat} {clock : Clock}
    (hmoves : u.Moves (.addTimer p clock) out u') : u'.HasSentinel t0 := by
  obtain ⟨sp, hsp, hissued⟩ := h
  cases hmoves with
  | @addTimer _ _ _ tm q htm hvalid hout hq =>
      have hlists : q.timerLists = u.queue.timerLists.insert ⟨tm.expiration, p⟩ := by
        rcases hq with ⟨rfl, -⟩ | ⟨rfl, -⟩ <;> simp [TimerQueue.withEntry]
      refine ⟨sp, ?_, ?_⟩
      · rw [hlists]
        exact OrderedSet.mem_insert.mpr (.inr hsp)
      · intro id index hid
        rcases List.mem_cons.mp hid with hid | hid
        · obtain ⟨rfl, -⟩ := Prod.mk.inj hid
          exact (hout _ hsp).symm
        · exact hissued id index hid

theorem HasSentinel.moves (h : u.HasSentinel t0) (hgood : u.Good) (ha : u.UsedOnce t0 a)
    (hmoves : u.Moves a out u') : u'.HasSentinel t0 := by
  cases hmoves with
  | newTimer => exact h
  | addTimer htm hvalid hout hq => exact h.addTimer (.addTimer htm hvalid hout hq)
  | @addTimerAt _ _ p time interval brepeat clock hfree hvalid hadd =>
      have hmid : (u.constructed p time brepeat false interval).HasSentinel t0 := h
      exact hmid.addTimer hadd
  | delNothing => exact h
  | delTimer hid he heq htm =>
      obtain ⟨sp, hsp, hissued⟩ := h
      refine ⟨sp, ?_, hissued⟩
      rw [TimerQueue.timerLists_rearm]
      refine OrderedSet.mem_erase.mpr ⟨?_, hsp⟩
      rintro rfl
      rcases hid with rfl | ⟨index, hid⟩
      · exact absurd heq (Nat.ne_of_gt (hgood.consistent.address _ _ htm).1)
      · exact hissued _ index hid heq.symm
  | eventIdle =>
      obtain ⟨sp, hsp, hissued⟩ := h
      exact ⟨sp, by rwa [TimerQueue.timerLists_readTimerfd], hissued⟩
  | eventFires hsome hq hcons =>
      obtain ⟨sp, hsp, hissued⟩ := h
      refine ⟨sp, ?_, hissued⟩
      rw [TimerQueue.timerLists_rearm, hq.entries]
      left
      rw [TimerQueue.mem_withoutDue (hgood.consistent.congr (by simp) (by simp) (by simp)),
        TimerQueue.timerLists_readTimerfd]
      exact ⟨hsp, ha.1⟩

/-- What holds of every run of the machine. -/
structure Ready (t0 : Timestamp) (u : TimerUse) : Prop where
  good : u.Good
  sentinel : u.HasSentinel t0

/-- A step of the machine. -/
theorem Ready.step (h : u.Ready t0) (ha : u.UsedOnce t0 a) :
    ∃ out u', u.step a = ⟨out, .ok u'⟩ ∧ u.Moves a out u' ∧ u'.Ready t0 := by
  obtain ⟨sp, hsp, -⟩ := h.sentinel
  obtain ⟨out, u', hstep, hmoves⟩ := step_moves h.good (ha.allowed h.good)
    fun _ _ _ _ _ hnone => OrderedSet.first?_eq_none.mp hnone _ hsp
  exact ⟨out, u', hstep, hmoves, h.good.moves hmoves, h.sentinel.moves h.good ha hmoves⟩

theorem ready_invariant (t0 : Timestamp) : (timerMachine t0).Invariant (Ready t0) := by
  intro u a u' h ha hok
  obtain ⟨out, u'', hstep, -, hready⟩ := h.step ha
  rw [show ((timerMachine t0).step u a).result = .ok u'' from congrArg Traced.result hstep] at hok
  exact Except.ok.inj hok ▸ hready

theorem ready_succeeds (t0 : Timestamp) : (timerMachine t0).Succeeds (Ready t0) := by
  intro u a h ha
  obtain ⟨out, u', hstep, -⟩ := h.step ha
  exact ⟨u', congrArg Traced.result hstep⟩

/-! ## Timers that are gone -/

/-- What is dead is gone. -/
theorem Dead.gone {index : Nat} (h : u.Dead index) (hready : u.Ready t0) : Gone t0 u index := by
  have hinv : (timerMachine t0).Invariant fun u => u.Ready t0 ∧ u.Dead index := by
    intro u a u' ⟨hready, hdead⟩ ha hok
    obtain ⟨out, u'', hstep, hmoves, hready'⟩ := hready.step ha
    rw [show ((timerMachine t0).step u a).result = .ok u'' from congrArg Traced.result hstep] at hok
    obtain rfl := Except.ok.inj hok
    exact ⟨hready', hdead.moves hready.good ha.addsOnce hmoves⟩
  intro steps hlegal
  constructor
  · intro p hmem
    refine hinv.forall_out (Q := fun o => o ≠ .run p index) ?_ ⟨hready, h⟩ hlegal _ hmem rfl
    intro u a hu ha o ho heq
    obtain ⟨out, u', hstep, hmoves, -⟩ := hu.1.step ha
    rw [show ((timerMachine t0).step u a).out = out from congrArg Traced.out hstep, heq] at ho
    exact hu.2.run_notMem hu.1.good hmoves p ho
  · exact fun u' hrun => (hinv.run ⟨hready, h⟩ hlegal hrun).2.unqueued

/-! ## What one event does -/

section Event

variable {evtime : Timestamp} {expired : Bool} {restarts : Nat → Restart} {clock : Clock}
  {q : TimerQueue}

/-- No timer that an event leaves has the index of a one-shot timer that was due. -/
theorem dead_of_fired (h : u.Good)
    (hq : ((u.queue.readTimerfd expired).withoutDue evtime).Restarted restarts
      (u.queue.due evtime) q) {e : TimerEntity} (he : e ∈ u.queue.timerLists)
    (hle : e.first ≤ evtime) {tm : Timer} (htm : u.queue.heap e.second = some tm)
    (hrep : tm.brepeat = false) : Dead tm.index { u with queue := q.rearm clock } := by
  have hcons := h.consistent
  have hsame : ∀ p tm', q.heap p = some tm' → tm'.index = tm.index → p = e.second := by
    intro p tm' htm' heq
    obtain ⟨tm'', htm'', hindex⟩ := heap_of_event h hq htm'
    exact hcons.index _ _ tm'' tm htm'' htm (hindex.trans heq)
  refine ⟨?_, ?_, ?_⟩
  · rw [TimerQueue.sIndexNum_rearm, hq.sIndexNum_eq, TimerQueue.withoutDue,
      TimerQueue.sIndexNum_readTimerfd]
    exact (hcons.address _ tm htm).2.2
  · rintro ⟨x, hx, tm', htm', heq⟩
    rw [TimerQueue.timerLists_rearm] at hx
    rw [TimerQueue.heap_rearm] at htm'
    have hsecond := hsame _ tm' htm' heq
    rcases (entries_of_event h hq x).mp hx with ⟨hx, hlt⟩ | ⟨e', he', tm₁, htm₁, hrep₁, -, rfl⟩
    · rw [hcons.entry_unique hx he hsecond] at hlt
      exact absurd hle (not_le.mpr hlt)
    · rw [show e'.second = e.second from hsecond, htm] at htm₁
      obtain rfl := Option.some.inj htm₁
      rw [hrep] at hrep₁
      cases hrep₁
  · intro p hp tm' htm' heq
    rw [TimerQueue.heap_rearm] at htm'
    exact (h.pending p hp).2 e he (hsame p tm' htm' heq).symm

/-- A repeating timer that was due is restarted. -/
theorem heap_of_fired (h : u.Good)
    (hq : ((u.queue.readTimerfd expired).withoutDue evtime).Restarted restarts
      (u.queue.due evtime) q) {e : TimerEntity} (he : e ∈ u.queue.timerLists)
    (hle : e.first ≤ evtime) {tm : Timer} (htm : u.queue.heap e.second = some tm)
    (hrep : tm.brepeat = true) (hvalid : (tm.restartTimer (restarts e.second)).expiration.valid) :
    q.heap e.second = some (tm.restartTimer (restarts e.second)) := by
  have hexpired : q.heap e.second = tm.expired (restarts e.second) := by
    apply hq.expired e ((TimerQueue.mem_due h.consistent evtime e).mpr ⟨he, hle⟩) tm
    rw [TimerQueue.withoutDue, TimerQueue.heap_readTimerfd, htm]
  rw [hexpired, Timer.expired, if_pos hrep, if_pos hvalid]

/-- It is queued again once, with its new time. -/
theorem entries_of_fired (h : u.Good)
    (hq : ((u.queue.readTimerfd expired).withoutDue evtime).Restarted restarts
      (u.queue.due evtime) q) {e : TimerEntity} (he : e ∈ u.queue.timerLists)
    (hle : e.first ≤ evtime) {tm : Timer} (htm : u.queue.heap e.second = some tm)
    (hrep : tm.brepeat = true) (hvalid : (tm.restartTimer (restarts e.second)).expiration.valid)
    (x : TimerEntity) : x ∈ q.timerLists ∧ x.second = e.second ↔
      x = ⟨(tm.restartTimer (restarts e.second)).expiration, e.second⟩ := by
  have hcons := h.consistent
  have hdue := TimerQueue.mem_due hcons evtime
  rw [entries_of_event h hq]
  constructor
  · rintro ⟨⟨hx, hlt⟩ | ⟨e', he', tm', htm', -, -, rfl⟩, hsecond⟩
    · rw [hcons.entry_unique hx he hsecond] at hlt
      exact absurd hle (not_le.mpr hlt)
    · obtain rfl := hcons.entry_unique ((hdue e').mp he').1 he hsecond
      rw [htm] at htm'
      obtain rfl := Option.some.inj htm'
      rfl
  · rintro rfl
    exact ⟨.inr ⟨e, (hdue e).mpr ⟨he, hle⟩, tm, htm, hrep, hvalid, rfl⟩, rfl⟩

/-- A timer that was not due is left as it is. -/
theorem heap_of_later (h : u.Good)
    (hq : ((u.queue.readTimerfd expired).withoutDue evtime).Restarted restarts
      (u.queue.due evtime) q) {e : TimerEntity} (he : e ∈ u.queue.timerLists)
    (hlt : evtime < e.first) : q.heap e.second = u.queue.heap e.second := by
  rw [hq.others, TimerQueue.withoutDue, TimerQueue.heap_readTimerfd]
  intro e' he' heq
  obtain ⟨hmem, hle⟩ := (TimerQueue.mem_due h.consistent evtime e').mp he'
  rw [h.consistent.entry_unique hmem he heq] at hle
  exact absurd hle (not_le.mpr hlt)

/-- Every event fires exactly the timers that are due. -/
theorem Ready.firesExactly (h : u.Ready t0)
    (ha : u.UsedOnce t0 (.eventRead evtime expired restarts clock))
    (hmoves : u.Moves (.eventRead evtime expired restarts clock) out u') (hready : u'.Ready t0) :
    FiresExactly t0 u evtime restarts out u' := by
  obtain ⟨sp, hsp, -⟩ := h.sentinel
  have hcons := h.good.consistent
  cases hmoves with
  | eventIdle hidle =>
      -- the longest timer is never due, so that nothing is
      have hnone : ∀ e ∈ u.queue.timerLists, ¬e.first ≤ evtime := fun e he hle =>
        hidle ⟨⟨e, he, hle⟩, _, hsp, ha.1⟩
      refine ⟨List.nodup_nil, fun o => iff_of_false List.not_mem_nil ?_,
        fun e he hle => absurd hle (hnone e he), fun e he hle => absurd hle (hnone e he),
        ?_⟩
      · rintro ⟨e, he, hle, -⟩
        exact hnone e he hle
      · intro e he _
        rw [TimerQueue.timerLists_readTimerfd, TimerQueue.heap_readTimerfd]
        exact ⟨he, rfl⟩
  | @eventFires _ _ _ _ _ q hsome hq hgood =>
      have hdue := TimerQueue.mem_due hcons evtime
      refine ⟨?_, ?_, ?_, ?_, ?_⟩
      · exact TimerQueue.nodup_runs hcons (fun e he => ((hdue e).mp he).1)
          (u.queue.timerLists.nodup_below _)
      · intro o
        rw [TimerQueue.mem_runs]
        exact exists_congr fun e => by rw [hdue e, and_assoc]
      · intro e he hle tm htm hrep
        exact (dead_of_fired h.good hq he hle htm hrep).gone hready
      · intro e he hle tm htm hrep
        have hvalid := ha.2 e he hle tm htm hrep
        rw [TimerQueue.heap_rearm, TimerQueue.timerLists_rearm]
        exact ⟨heap_of_fired h.good hq he hle htm hrep hvalid,
          entries_of_fired h.good hq he hle htm hrep hvalid⟩
      · intro e he hlt
        rw [TimerQueue.heap_rearm, TimerQueue.timerLists_rearm]
        exact ⟨(entries_of_event h.good hq e).mpr (.inl ⟨he, hlt⟩), heap_of_later h.good hq he hlt⟩

end Event

/-- A cancellation removes the entries with the address in the id. -/
theorem entries_of_deleted (h : u.Good) {id : TimerId} {clock : Clock}
    (hmoves : u.Moves (.delTimerInLoop id clock) out u') (e : TimerEntity) :
    e ∈ u'.queue.timerLists ↔ e ∈ u.queue.timerLists ∧ e.second ≠ id.tm := by
  cases hmoves with
  | delNothing _ hout => exact ⟨fun he => ⟨he, hout e he⟩, And.left⟩
  | @delTimer _ _ _ e' _ _ he' heq' _ =>
      rw [TimerQueue.timerLists_rearm]
      refine OrderedSet.mem_erase.trans ⟨?_, ?_⟩
      · rintro ⟨hne, he⟩
        exact ⟨he, fun heq => hne (h.consistent.entry_unique he he' (heq.trans heq'.symm))⟩
      · rintro ⟨he, hne⟩
        refine ⟨?_, he⟩
        rintro rfl
        exact hne heq'

/-- A timer that a cancellation removes is gone. -/
theorem Ready.removed (h : u.Ready t0) {id : TimerId} {clock : Clock}
    (hmoves : u.Moves (.delTimerInLoop id clock) out u') (hready : u'.Ready t0) :
    ∀ e ∈ u.queue.timerLists, e ∉ u'.queue.timerLists → ∀ tm, u.queue.heap e.second = some tm →
      Gone t0 u' tm.index := by
  intro e he hgone tm htm
  have heq : e.second = id.tm := by
    by_contra hne
    exact hgone ((entries_of_deleted h.good hmoves e).mpr ⟨he, hne⟩)
  exact (dead_of_deleted h.good hmoves he heq htm).gone hready

theorem Ready.firingExact (h : u.Ready t0) : FiringExact t0 u where
  copies e he := by
    obtain ⟨tm, htm, hexp⟩ := h.good.consistent.entry e he
    exact ⟨tm, htm, hexp.symm⟩
  noTwice := List.Nodup.map_on (fun e he e' he' heq => h.good.consistent.entry_unique he he' heq)
    u.queue.timerLists.nodup
  fires evtime expired restarts clock ha := by
    obtain ⟨out, u', hstep, hmoves, hready⟩ := h.step ha
    exact ⟨out, u', hstep, h.firesExactly ha hmoves hready⟩
  removed id clock ha := by
    obtain ⟨out, u', hstep, hmoves, hready⟩ := h.step ha
    exact ⟨out, u', hstep, entries_of_deleted h.good hmoves, h.removed hmoves hready⟩

end TimerUse

/-- The constructor succeeds, and the queue holds the longest timer. -/
theorem TimerUse.ready_new (sIndexNum : Nat) (bsetup : Bool) {sentinel : Nat} (hpos : 0 < sentinel)
    (hlt : sentinel < UINTPTR_MAX) {t0 : Timestamp} (ht0 : 0 ≤ t0) (clock : Clock) :
    ∃ q, TimerQueue.new sIndexNum bsetup sentinel t0 clock = pure q ∧ (start q).Ready t0 :=
  ⟨_, TimerQueue.new_eq sIndexNum bsetup hpos ht0 clock, good_new sIndexNum bsetup hpos hlt ht0 clock,
    sentinel, (TimerQueue.mem_constructed sIndexNum bsetup sentinel t0 clock _).mpr rfl, by simp [start]⟩

/-- Timer firing is exact in every run. -/
theorem timerFiring {sentinel : Nat} (hpos : 0 < sentinel) (hlt : sentinel < UINTPTR_MAX)
    {t0 : Timestamp} (ht0 : 0 ≤ t0) (sIndexNum : Nat) (bsetup : Bool) (clock : Clock) :
    ∃ q, TimerQueue.new sIndexNum bsetup sentinel t0 clock = pure q ∧
      ∀ steps, (timerMachine t0).Legal (.start q) steps →
        ∃ u, ((timerMachine t0).run (.start q) steps).result = .ok u ∧ FiringExact t0 u := by
  obtain ⟨q, hq, hready⟩ := TimerUse.ready_new sIndexNum bsetup hpos hlt ht0 clock
  refine ⟨q, hq, ?_⟩
  intro steps hlegal
  obtain ⟨u, hu⟩ := (TimerUse.ready_invariant t0).exists_run (TimerUse.ready_succeeds t0) hready hlegal
  exact ⟨u, hu, ((TimerUse.ready_invariant t0).run hready hlegal hu).firingExact⟩

/-- Two one-shot timers and a repeating one; the second is cancelled, the others are due at 5. -/
def threeTimers : List TimerStep :=
  [.addTimerAt 2 5 none false ⟨0, 0⟩, .addTimerAt 3 5 (some 7) true ⟨0, 0⟩,
    .addTimerAt 4 5 none false ⟨0, 0⟩, .delTimerInLoop (.new 3 4) ⟨0, 0⟩,
    .eventRead 5 true (fun _ => ⟨0, 5⟩) ⟨5, 5⟩]

theorem timerFiring_threeTimers :
    ∃ q, TimerQueue.new 0 true 1 0 ⟨0, 0⟩ = pure q ∧
      ∃ u, ((timerMachine 0).run (.start q) threeTimers).result = .ok u ∧ FiringExact 0 u := by
  obtain ⟨q, hq, hruns⟩ :=
    timerFiring (show 0 < 1 by decide) (by decide) (le_refl 0) 0 true ⟨0, 0⟩
  refine ⟨q, hq, hruns _ ?_⟩
  obtain rfl := Except.ok.inj (congrArg Traced.result hq)
  refine Machine.legal_cons ⟨⟨by decide, by decide, rfl⟩, by decide⟩ rfl ?_
  refine Machine.legal_cons ⟨⟨by decide, by decide, rfl⟩, by decide⟩ rfl ?_
  refine Machine.legal_cons ⟨⟨by decide, by decide, rfl⟩, by decide⟩ rfl ?_
  refine Machine.legal_cons (.inr ⟨3, List.mem_cons_self ..⟩) rfl ?_
  refine Machine.legal_cons ⟨by decide, ?_⟩ rfl trivial
  intro ⟨first, p⟩ _ _ tm htm hrep
  -- only the timer at 3 repeats
  rcases p with _ | _ | _ | _ | _ | p
  · cases htm
  · obtain rfl := Option.some.inj htm
    cases hrep
  · obtain rfl := Option.some.inj htm
    cases hrep
  · obtain rfl := Option.some.inj htm
    exact show (0 : Int) < 12 by decide
  · cases htm
  · cases htm

end WebsocketCpp
