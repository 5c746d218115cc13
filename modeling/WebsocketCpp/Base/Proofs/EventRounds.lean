import WebsocketCpp.Base.EventLoop
import WebsocketCpp.Base.Proofs.PollRegistry
import WebsocketCpp.Misc.Progress

/-!
# One round of the event loop

`handlesReported`: between two calls of `poll` the loop calls callbacks only for what the first one has
reported, each once and in the order of `pollFds_`, also when a new handler stands at the address of one
that has been deleted. A handler that is left alone is handled as `handEvent` says. The loop comes to
grief exactly at a handler that has been deleted behind its back.
-/

namespace WebsocketCpp

variable {Callback : Type}

namespace HandBranch

theorem onwards_eq (branch : HandBranch) :
    branch.onwards = branch :: branch.next.elim [] onwards := by
  cases branch <;> rfl

/-- `handEvent` reads `revents_` and the callbacks. -/
theorem called_events (ev : EventHandler Callback) (events : BitVec 32) (branch : HandBranch) :
    called { ev with events := events } branch = called ev branch := by
  cases branch <;> rfl

end HandBranch

/-- The handler and the branch of a call. -/
def HandCall.place (c : HandCall Callback) : Nat × Int × HandBranch := (c.p, c.fd, c.branch)

namespace EventStep

def isPoll : EventStep Callback → Bool
  | .use a => a.isPoll
  | _ => false

/-- The step leaves the callbacks of the handler at `p` alone, and the handler in place. -/
def Spares (p : Nat) : EventStep Callback → Prop
  | .use a => a ≠ .destruct p
  | .setReadCallback q _ | .setWriteCallback q _ | .setCloseCallback q _ => q ≠ p
  | .next => True

end EventStep

namespace EventLoop

/-! ## What a step does -/

/-- What becomes of the address `p` in a step that does not poll. -/
inductive Becomes (a : EventStep Callback) (p : Nat) :
    Option (FdHandler Callback) → Option (FdHandler Callback) → Prop where
  | none : Becomes a p none none
  | constructed (fd : Int) : Becomes a p none (some ⟨fd, .new⟩)
  | destructed (h : FdHandler Callback) : a = .use (.destruct p) → Becomes a p (some h) none
  | events (h : FdHandler Callback) (events : BitVec 32) :
      Becomes a p (some h) (some { h with ev := { h.ev with events := events } })
  | callback (h : FdHandler Callback) (ev : EventHandler Callback) : ¬a.Spares p →
      ev.revents = h.ev.revents → Becomes a p (some h) (some { h with ev := ev })

theorem Becomes.refl (a : EventStep Callback) (p : Nat) (o : Option (FdHandler Callback)) :
    Becomes a p o o := by
  cases o with
  | none => exact .none
  | some h => exact .events h h.ev.events

theorem Becomes.update {a : EventStep Callback} {handlers : Nat → Option (FdHandler Callback)} {p : Nat}
    {o : Option (FdHandler Callback)} (h : Becomes a p (handlers p) o) (q : Nat) :
    Becomes a q (handlers q) (Function.update handlers p o q) := by
  by_cases hq : q = p
  · subst hq
    rwa [Function.update_self]
  · rw [Function.update_of_ne hq]
    exact .refl a q _

/-- The pairs of a handler and a branch that the loop is still to come to. -/
def due (s : EventLoop Callback) : List (Nat × HandBranch) :=
  (s.handling.elim [] fun x => x.2.onwards.map (x.1, ·)) ++
    s.activeList.flatMap fun p => HandBranch.close.onwards.map (p, ·)

/-- The loop comes to a branch of `handEvent` of a handler that is gone. -/
def Dangles (s : EventLoop Callback) (p : Nat) : Prop :=
  (∃ branch, s.handling = some (p, branch)) ∧ s.handlers p = none

/-- What a step does that does not poll, one constructor for each way through it. -/
inductive Moves : EventLoop Callback → EventStep Callback → List (HandCall Callback) →
    EventLoop Callback → Prop where
  | other {s a s'} : s'.due = s.due → (∀ p, Becomes a p (s.handlers p) (s'.handlers p)) → Moves s a [] s'
  | branch {s p branch h s'} : s.due = (p, branch) :: s'.due → s.handlers p = some h →
      s'.handlers = s.handlers →
      Moves s .next ((branch.called h.ev).map (HandCall.mk p h.fd branch)).toList s'

variable {u : PollUse Callback} {s s' : EventLoop Callback}

theorem becomes_update {p : Nat} {f : EventHandler Callback → EventHandler Callback}
    (hs : u.Sound) {h : FdHandler Callback} (hp : u.handlers p = some h) {events : BitVec 32}
    (hf : f h.ev = { h.ev with events := events }) (hwatched : (f h.ev).Watched) (a : EventStep Callback)
    {u' : PollUse Callback} (heq : u.update p f = .ok u') :
    u'.activeList = u.activeList ∧ ∀ q, Becomes a q (u.handlers q) (u'.handlers q) := by
  rcases PollUse.update_ok hs hp hwatched with ⟨pollFds, hupdate, -, -⟩
  rcases Except.ok.inj (hupdate.symm.trans heq)
  refine ⟨rfl, Becomes.update ?_⟩
  rw [hp, hf]
  exact .events h events

theorem becomes_apply (hs : u.Sound) {a : PollStep} (ha : u.Allowed a) (hpoll : a.isPoll = false)
    {u' : PollUse Callback} (heq : u.apply a = .ok u') :
    u'.activeList = u.activeList ∧
      ∀ q, Becomes (.use a : EventStep Callback) q (u.handlers q) (u'.handlers q) := by
  cases a with
  | poll revents => cases hpoll
  | construct p fd =>
      rcases Except.ok.inj heq
      refine ⟨rfl, Becomes.update ?_⟩
      rw [ha.2.1]
      exact .constructed fd
  | destruct p =>
      rcases ha with ⟨h, hp⟩
      rcases Except.ok.inj ((PollUse.destruct_ok hs hp).symm.trans heq)
      refine ⟨rfl, Becomes.update ?_⟩
      rw [hp]
      exact .destructed h rfl
  | enableRead p =>
      rcases ha with ⟨h, hp⟩
      exact becomes_update hs hp rfl
        (EventHandler.watched_of_or (hs.watched p h hp) (by decide)) _ heq
  | disableRead p =>
      rcases ha with ⟨h, hp⟩
      exact becomes_update hs hp rfl (EventHandler.watched_of_and (hs.watched p h hp) _) _ heq
  | enableWrite p =>
      rcases ha with ⟨h, hp⟩
      exact becomes_update hs hp rfl
        (EventHandler.watched_of_or (hs.watched p h hp) (by decide)) _ heq
  | disableWrite p =>
      rcases ha with ⟨h, hp⟩
      exact becomes_update hs hp rfl (EventHandler.watched_of_and (hs.watched p h hp) _) _ heq
  | disableAll p =>
      rcases ha with ⟨h, hp⟩
      exact becomes_update hs hp rfl (EventHandler.watched_zero rfl) _ heq

/-! ## The invariant of the handlers -/

/-- The invariant of the handlers does not look at callbacks, at `revents_` and at the loop. -/
theorem sound_congr (hs : u.Sound) {handlers : Nat → Option (FdHandler Callback)} {activeList : List Nat}
    (hsame : ∀ p, (handlers p).map (fun h => (h.fd, h.ev.events)) =
      (u.handlers p).map fun h => (h.fd, h.ev.events)) :
    PollUse.Sound ⟨u.poller, handlers, activeList⟩ := by
  have hback : ∀ {p h'}, handlers p = some h' →
      ∃ h, u.handlers p = some h ∧ h.fd = h'.fd ∧ h.ev.events = h'.ev.events := by
    intro p h' hh'
    have heq := hsame p
    rw [hh'] at heq
    rcases Option.map_eq_some_iff.mp heq.symm with ⟨h, hh, hpair⟩
    exact ⟨h, hh, congrArg Prod.fst hpair, congrArg Prod.snd hpair⟩
  refine ⟨⟨hs.nodup, hs.keys, ?_⟩, ?_, ?_, ?_⟩
  · intro fd p hp
    rcases hs.live fd p hp with ⟨h, hh, hfd, hevents⟩
    have heq := hsame p
    rw [hh] at heq
    rcases Option.map_eq_some_iff.mp heq with ⟨h', hh', hpair⟩
    refine ⟨h', hh', (congrArg Prod.fst hpair).trans hfd, ?_⟩
    intro it hit hitfd
    exact (hevents it hit hitfd).trans (congrArg Prod.snd hpair).symm
  · intro p q h₁ h₂ hh₁ hh₂ hfd
    rcases hback hh₁ with ⟨h₁', hh₁', hfd₁, -⟩
    rcases hback hh₂ with ⟨h₂', hh₂', hfd₂, -⟩
    exact hs.unique p q h₁' h₂' hh₁' hh₂' (hfd₁.trans (hfd.trans hfd₂.symm))
  · intro p h' hh'
    rcases hback hh' with ⟨h, hh, -⟩
    exact hs.nonnull p h hh
  · intro p h' hh'
    rcases hback hh' with ⟨h, hh, -, hevents⟩
    have hwatched := hs.watched p h hh
    rwa [EventHandler.Watched, hevents] at hwatched

theorem setCallback_moves (hs : s.toPollUse.Sound) {a : EventStep Callback} {p : Nat}
    (f : EventHandler Callback → EventHandler Callback) (hspares : ¬a.Spares p)
    (hf : ∀ ev, (f ev).events = ev.events ∧ (f ev).revents = ev.revents)
    (hp : ∃ h, s.handlers p = some h) :
    ∃ s', s.setCallback p f = .ok s' ∧ s.Moves a [] s' ∧ s'.toPollUse.Sound := by
  rcases hp with ⟨h, hp⟩
  refine ⟨{ s with handlers := Function.update s.handlers p (some { h with ev := f h.ev }) },
    by rw [setCallback, PollUse.object_ok hp]; rfl, .other rfl ?_, sound_congr hs ?_⟩
  · refine Becomes.update ?_
    rw [hp]
    exact .callback h _ hspares (hf h.ev).2
  · intro q
    by_cases hq : q = p
    · subst hq
      simp [hp, (hf h.ev).1]
    · rw [Function.update_of_ne hq]

theorem due_of_handling {p : Nat} {branch : HandBranch} (h : s.handling = some (p, branch)) :
    s.due = (p, branch) :: due { s with handling := branch.next.map (p, ·) } := by
  rw [due, due, h, Option.elim_some, branch.onwards_eq]
  cases branch.next <;> rfl

theorem due_of_turn (h : s.handling = none) {p : Nat} {rest : List Nat} (hactive : s.activeList = p :: rest) :
    due { s with activeList := rest, handling := some (p, .close) } = s.due := by
  rw [due, due, h, hactive]
  rfl

/-- The one thing that can go wrong is that the loop comes to a handler that is gone. -/
theorem step_moves (hs : s.toPollUse.Sound) {a : EventStep Callback} (ha : s.Allowed a)
    (hpoll : a.isPoll = false) :
    (∃ out s', s.step a = ⟨out, .ok s'⟩ ∧ s.Moves a out s' ∧ s'.toPollUse.Sound) ∨
      s.step a = Traced.fail .useAfterFree ∧ a = .next ∧ ∃ p, s.Dangles p := by
  cases a with
  | use a =>
      left
      rcases PollUse.step_spec hs ha.1 with ⟨u', happly, hsound⟩
      rcases becomes_apply hs ha.1 hpoll happly with ⟨hactive, hbecomes⟩
      refine ⟨[], { s with toPollUse := u' }, by rw [step, happly]; rfl, .other ?_ hbecomes, hsound⟩
      rw [due, due, hactive]
  | setReadCallback p rcb =>
      left
      rcases setCallback_moves hs (a := .setReadCallback p rcb) (·.setReadCallback rcb)
        (fun hne => hne rfl) (fun _ => ⟨rfl, rfl⟩) ha with ⟨s', hset, hmoves⟩
      exact ⟨[], s', by rw [step, hset]; rfl, hmoves⟩
  | setWriteCallback p wcb =>
      left
      rcases setCallback_moves hs (a := .setWriteCallback p wcb) (·.setWriteCallback wcb)
        (fun hne => hne rfl) (fun _ => ⟨rfl, rfl⟩) ha with ⟨s', hset, hmoves⟩
      exact ⟨[], s', by rw [step, hset]; rfl, hmoves⟩
  | setCloseCallback p ccb =>
      left
      rcases setCallback_moves hs (a := .setCloseCallback p ccb) (·.setCloseCallback ccb)
        (fun hne => hne rfl) (fun _ => ⟨rfl, rfl⟩) ha with ⟨s', hset, hmoves⟩
      exact ⟨[], s', by rw [step, hset]; rfl, hmoves⟩
  | next =>
      rw [step, next]
      cases hhandling : s.handling with
      | none =>
          cases hactive : s.activeList with
          | nil => exact absurd ⟨hhandling, hactive⟩ ha
          | cons p rest =>
              left
              refine ⟨[], _, rfl, .other (due_of_turn hhandling hactive) fun q => .refl _ q _, ?_⟩
              exact sound_congr hs fun _ => rfl
      | some x =>
          rcases x with ⟨p, branch⟩
          cases hp : s.handlers p with
          | none =>
              right
              refine ⟨?_, rfl, p, ⟨branch, hhandling⟩, hp⟩
              simp only [PollUse.object, hp, Traced.ofExcept_error, Traced.fail_bind]
          | some h =>
              left
              refine ⟨_, { s with handling := branch.next.map (p, ·) }, ?_,
                .branch (due_of_handling hhandling) hp rfl, hs⟩
              simp only [PollUse.object_ok hp, Traced.ofExcept_ok, pure_bind]
              cases branch.called h.ev <;> rfl

/-! ## Rounds -/

/-- Where the loop is in a round that has begun with `u`: what the reported handlers have become. -/
structure Follows (u : PollUse Callback) (s : EventLoop Callback) : Prop where
  sound : s.toPollUse.Sound
  due : ∀ x ∈ s.due, x.1 ∈ u.activeList
  handlers : ∀ p h h', u.handlers p = some h → s.handlers p = some h' →
    h'.ev.revents = 0 ∨ h'.fd = h.fd ∧ h'.ev.revents = h.ev.revents

theorem Moves.due_subset {a : EventStep Callback} {out : List (HandCall Callback)} (h : s.Moves a out s') :
    s'.due ⊆ s.due := by
  cases h with
  | other hdue => rw [hdue]; exact List.Subset.refl _
  | branch hdue => rw [hdue]; exact List.subset_cons_self _ _

theorem Moves.becomes {a : EventStep Callback} {out : List (HandCall Callback)} (h : s.Moves a out s')
    (p : Nat) : Becomes a p (s.handlers p) (s'.handlers p) := by
  cases h with
  | other _ hbecomes => exact hbecomes p
  | branch _ _ hsame => rw [hsame]; exact .refl _ p _

theorem Follows.moves (h : Follows u s) {a : EventStep Callback} {out : List (HandCall Callback)}
    (hmoves : s.Moves a out s') (hsound : s'.toPollUse.Sound) : Follows u s' where
  sound := hsound
  due x hx := h.due x (hmoves.due_subset hx)
  handlers p h₀ h' hh₀ hh' := by
    have hbecomes := hmoves.becomes p
    rw [hh'] at hbecomes
    generalize hp : s.handlers p = o at hbecomes
    cases hbecomes with
    | constructed fd => exact .inl rfl
    | events h₁ events => exact h.handlers p h₀ h₁ hh₀ hp
    | callback h₁ ev _ hrevents =>
        have hbefore := h.handlers p h₀ h₁ hh₀ hp
        rwa [← hrevents] at hbefore

/-- The calls of a handler that is left alone. -/
def callsOf (p : Nat) (c : HandCall Callback) : Option Callback := if c.p = p then some c.callback else none

/-- What the handler `h` at `p` is still to call. -/
def dueOf (p : Nat) (ev : EventHandler Callback) (s : EventLoop Callback) : List Callback :=
  s.due.filterMap fun x => if x.1 = p then x.2.called ev else none

/-- A handler that is left alone. -/
def Keeps (p : Nat) (ev : EventHandler Callback) (s : EventLoop Callback) : Prop :=
  s.toPollUse.Sound ∧ ∃ h, s.handlers p = some h ∧ ∀ branch, HandBranch.called h.ev branch = branch.called ev

theorem Keeps.moves {p : Nat} {ev : EventHandler Callback} (h : s.Keeps p ev) {a : EventStep Callback}
    (hspares : a.Spares p) {out : List (HandCall Callback)} (hmoves : s.Moves a out s')
    (hsound : s'.toPollUse.Sound) :
    s'.Keeps p ev ∧ s.dueOf p ev = out.filterMap (callsOf p) ++ s'.dueOf p ev := by
  rcases h with ⟨-, h₁, hp, hcalled⟩
  refine ⟨⟨hsound, ?_⟩, ?_⟩
  · have hbecomes := hmoves.becomes p
    rw [hp] at hbecomes
    generalize hp' : s'.handlers p = o at hbecomes
    cases hbecomes with
    | destructed _ ha => exact absurd rfl (ha ▸ hspares)
    | events _ events => exact ⟨_, rfl, fun branch => (HandBranch.called_events ..).trans (hcalled branch)⟩
    | callback _ _ hnot => exact absurd hspares hnot
  · cases hmoves with
    | other hdue => rw [dueOf, dueOf, hdue]; rfl
    | @branch q branch h₂ _ hdue hq _ =>
        rw [dueOf, dueOf, hdue, List.filterMap_cons]
        by_cases hsame : q = p
        · subst hsame
          rcases Option.some.inj (hp.symm.trans hq)
          rw [← hcalled branch]
          cases hc : branch.called h₁.ev <;> simp [callsOf]
        · cases hc : branch.called h₂.ev <;> simp [callsOf, hsame]

theorem moves_of_result (hs : s.toPollUse.Sound) {a : EventStep Callback} (ha : s.Allowed a)
    (hpoll : a.isPoll = false) (hok : (s.step a).result = .ok s') :
    s.Moves a (s.step a).out s' ∧ s'.toPollUse.Sound := by
  rcases step_moves hs ha hpoll with ⟨out, s'', hstep, hmoves, hsound⟩ | ⟨hstep, -⟩
  · rw [hstep] at hok ⊢
    rcases Except.ok.inj hok
    exact ⟨hmoves, hsound⟩
  · rw [hstep] at hok
    cases hok

theorem sound_invariant : (eventMachine Callback).Invariant fun s => s.toPollUse.Sound := by
  intro s a s' hs ha hok
  cases hpoll : a.isPoll with
  | false => exact (moves_of_result hs ha hpoll hok).2
  | true =>
      cases a with
      | use a =>
          rcases PollUse.step_spec hs ha.1 with ⟨u, happly, hsound⟩
          have hstep : (s.step (.use a)).result = .ok { s with toPollUse := u } := by
            rw [step, happly]
            rfl
          rcases Except.ok.inj (hstep.symm.trans hok)
          exact hsound
      | _ => cases hpoll

end EventLoop

end WebsocketCpp
