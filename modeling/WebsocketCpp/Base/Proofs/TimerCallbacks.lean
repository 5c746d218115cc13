import WebsocketCpp.Base.Proofs.TimerRuns

/-!
# Callbacks after a cancellation

`Timer::run` hands the timer to a detached thread (`base/Timer.cpp:18-41`), which follows the pointer
at any later moment. `noCallbackAfterCancel`: a cancelled timer is never used again if no thread has
yet to run it when it is cancelled. Otherwise the thread uses a deleted timer.
-/

namespace WebsocketCpp

/-- The loop thread, and the timers that have been handed to threads which have not started: each
with its address and the index it had. -/
structure TimerThreads where
  use : TimerUse
  inFlight : List (Nat × Nat)

inductive ThreadStep where
  | loop (a : TimerStep)
  | execute (k : Nat)

/-- What the queue does; the end of a cancellation, with an index for which its id was returned; and
the start of a callback, with the index of the timer it was meant for and of the timer that is at the
address. -/
inductive ThreadEvent where
  | queue (e : TimerEvent)
  | cancelled (index : Nat)
  | asyncRunProc (index : Nat) (object : Option Nat)
  deriving DecidableEq, Repr

/-- `Timer::run` (`Timer.cpp:18-30`): the thread gets the pointer. -/
def TimerEvent.handedOver : TimerEvent → Option (Nat × Nat)
  | .run p index => some (p, index)
  | .deleted _ => none

/-- The timers that a cancellation is meant for, or that it finds at the address. -/
def TimerUse.Targets (u : TimerUse) (id : TimerId) (index : Nat) : Prop :=
  (id, index) ∈ u.issued ∨ ∃ e ∈ u.queue.timerLists, e.second = id.tm ∧
    ∃ tm, u.queue.heap e.second = some tm ∧ tm.index = index

/-- The indices of the timers that a step cancels. -/
def TimerUse.cancels (u : TimerUse) : TimerStep → List Nat
  | .delTimerInLoop id _ => (u.issued.filter (·.1 = id)).map Prod.snd
  | _ => []

namespace TimerThreads

def step (s : TimerThreads) : ThreadStep → Traced ThreadEvent ObjectFault TimerThreads
  | .loop a => do
    let use ← (s.use.step a).mapOut .queue
    (⟨(s.use.cancels a).map .cancelled, .ok ()⟩ : Traced ThreadEvent ObjectFault Unit)
    pure ⟨use, s.inFlight ++ (s.use.step a).out.filterMap TimerEvent.handedOver⟩
  | .execute k =>
    match s.inFlight[k]? with
    | none => pure s
    | some (p, index) => do
      Traced.emit (.asyncRunProc index ((s.use.queue.heap p).map Timer.index))
      pure { s with inFlight := s.inFlight.eraseIdx k }

/-- The queue is used as it should be, and no timer is added twice. -/
def Allowed (s : TimerThreads) : ThreadStep → Prop
  | .loop a => s.use.Allowed a ∧ s.use.AddsOnce a
  | .execute k => k < s.inFlight.length

/-- The thread has been started for the timer, or will find it at the address. -/
def Reaches (s : TimerThreads) (m : Nat × Nat) (index : Nat) : Prop :=
  m.2 = index ∨ ∃ tm, s.use.queue.heap m.1 = some tm ∧ tm.index = index

/-- When a timer is cancelled, no thread that has yet to start reaches it, nor the timer that is
deleted in its place. -/
def Quiet (s : TimerThreads) : ThreadStep → Prop
  | .loop (.delTimerInLoop id _) =>
    ∀ m ∈ s.inFlight, ∀ index, s.use.Targets id index → ¬s.Reaches m index
  | _ => True

end TimerThreads

def threadMachine : Machine TimerThreads ThreadStep ThreadEvent ObjectFault where
  step := TimerThreads.step
  Allowed := TimerThreads.Allowed

namespace ThreadEvent

/-- The timer has been cancelled, or deleted by a cancellation. -/
def Ends (index : Nat) (e : ThreadEvent) : Prop := e = .cancelled index ∨ e = .queue (.deleted index)

/-- The timer is used: it is run, or a thread that is meant for it or finds it starts. -/
def Uses (index : Nat) : ThreadEvent → Prop
  | .queue (.run _ i) => i = index
  | .asyncRunProc i object => i = index ∨ object = some index
  | _ => False

end ThreadEvent

/-- After the end of a timer it is not used. -/
def NoCallbackAfter (events : List ThreadEvent) : Prop :=
  events.Pairwise fun e e' => ∀ index, e.Ends index → ¬e'.Uses index

namespace TimerThreads

variable {s s' : TimerThreads}

/-- The timer will not be used any more. -/
structure Silent (index : Nat) (s : TimerThreads) : Prop where
  dead : s.use.Dead index
  unreached : ∀ m ∈ s.inFlight, ¬s.Reaches m index

/-- A step of the loop thread. -/
theorem step_loop {a : TimerStep} {out : List TimerEvent} {u : TimerUse}
    (h : s.use.step a = ⟨out, .ok u⟩) :
    s.step (.loop a) = ⟨out.map .queue ++ (s.use.cancels a).map .cancelled,
      .ok ⟨u, s.inFlight ++ out.filterMap TimerEvent.handedOver⟩⟩ := by
  rw [step, h, Traced.mapOut, Traced.mk_bind, Traced.mk_bind]
  simp

/-- A step of the loop thread that fails. -/
theorem step_loop_error {a : TimerStep} {out : List TimerEvent} {e : ObjectFault}
    (h : s.use.step a = ⟨out, .error e⟩) : s.step (.loop a) = ⟨out.map .queue, .error e⟩ := by
  rw [step, h, Traced.mapOut, Traced.bind_of_error rfl]

theorem step_execute {k : Nat} (hk : k < s.inFlight.length) :
    s.step (.execute k) = ⟨[.asyncRunProc s.inFlight[k].2
      ((s.use.queue.heap s.inFlight[k].1).map Timer.index)],
      .ok { s with inFlight := s.inFlight.eraseIdx k }⟩ := by
  rw [step, List.getElem?_eq_getElem hk]
  rfl

/-- A step that succeeds, in one of the two kinds of thread. -/
theorem step_cases {a : ThreadStep} (hgood : s.use.Good) (ha : s.Allowed a)
    (hok : (s.step a).result = .ok s') :
    (∃ b out u, a = .loop b ∧ s.use.Moves b out u ∧ s.use.AddsOnce b ∧
      s.step a = ⟨out.map .queue ++ (s.use.cancels b).map .cancelled, .ok s'⟩ ∧
      s' = ⟨u, s.inFlight ++ out.filterMap TimerEvent.handedOver⟩) ∨
    ∃ m ∈ s.inFlight, ∃ rest,
      s.step a = ⟨[.asyncRunProc m.2 ((s.use.queue.heap m.1).map Timer.index)], .ok s'⟩ ∧
      rest ⊆ s.inFlight ∧ s' = { s with inFlight := rest } := by
  cases a with
  | loop b =>
      left
      obtain ⟨hb, honce⟩ := ha
      cases hstep : s.use.step b with
      | mk out result =>
          cases result with
          | error e =>
              rw [step_loop_error hstep] at hok
              cases hok
          | ok u =>
              obtain ⟨out', hstep', hmoves⟩ := TimerUse.moves_of_result hgood hb
                (show (s.use.step b).result = .ok u by rw [hstep])
              rw [hstep] at hstep'
              cases hstep'
              rw [step_loop hstep] at hok ⊢
              obtain rfl := Except.ok.inj hok
              exact ⟨b, out, u, rfl, hmoves, honce, rfl, rfl⟩
  | execute k =>
      right
      rw [step_execute ha] at hok ⊢
      obtain rfl := Except.ok.inj hok
      exact ⟨s.inFlight[k], List.getElem_mem ha, _, rfl, List.eraseIdx_subset .., rfl⟩

theorem good_invariant : threadMachine.Invariant fun s => s.use.Good := by
  intro s a s' hgood ha hok
  rcases step_cases hgood ha hok with ⟨b, out, u, -, hmoves, -, -, rfl⟩ | ⟨m, -, rest, -, -, rfl⟩
  · exact hgood.moves hmoves
  · exact hgood

/-- What an event runs is queued. -/
theorem queued_of_run {u u' : TimerUse} {a : TimerStep} {out : List TimerEvent} (hgood : u.Good)
    (hmoves : u.Moves a out u') {p index : Nat} (hrun : .run p index ∈ out) :
    ∃ x ∈ u.queue.timerLists, ∃ tm, u.queue.heap x.second = some tm ∧ p = x.second ∧
      index = tm.index := by
  cases hmoves with
  | newTimer | addTimer | addTimerAt | delNothing | eventIdle => cases hrun
  | delTimer => cases List.mem_singleton.mp hrun
  | eventFires =>
      obtain ⟨x, hx, tm, htm, heq⟩ := TimerQueue.mem_runs.mp hrun
      cases heq
      exact ⟨x, ((TimerQueue.mem_due hgood.consistent _ x).mp hx).1, tm, htm, rfl, rfl⟩

/-- A step of the loop thread brings no thread to an old timer that it did not reach. -/
theorem reaches_of_moves {a : TimerStep} {out : List TimerEvent} {u : TimerUse} (hgood : s.use.Good)
    (hmoves : s.use.Moves a out u) {inFlight : List (Nat × Nat)} {m : Nat × Nat} {index : Nat}
    (hindex : index < s.use.queue.sIndexNum) (h : Reaches ⟨u, inFlight⟩ m index) :
    s.Reaches m index := by
  rcases h with hmeant | ⟨tm, htm, rfl⟩
  · exact .inl hmeant
  · exact .inr (TimerUse.heap_of_moves hgood hmoves htm hindex)

/-- A step does not use a timer that is silent, and leaves it so. -/
theorem Silent.step {index : Nat} (h : s.Silent index) {a : ThreadStep} (hgood : s.use.Good)
    (ha : s.Allowed a) (hok : (s.step a).result = .ok s') :
    s'.Silent index ∧ ∀ e ∈ (s.step a).out, ¬e.Uses index := by
  rcases step_cases hgood ha hok with
    ⟨b, out, u, -, hmoves, honce, hstep, rfl⟩ | ⟨m, hm, rest, hstep, hrest, rfl⟩
  · have hrun := h.dead.run_notMem hgood hmoves
    rw [hstep]
    refine ⟨⟨h.dead.moves hgood honce hmoves, ?_⟩, ?_⟩
    · intro m hm hreach
      have hreach := reaches_of_moves hgood hmoves h.dead.used hreach
      rcases List.mem_append.mp hm with hm | hm
      · exact h.unreached m hm hreach
      · -- a thread that has just been started is for a queued timer
        obtain ⟨o, ho, hmsg⟩ := List.mem_filterMap.mp hm
        obtain ⟨p, i, rfl⟩ : ∃ p i, o = .run p i := by
          cases o with
          | run p i => exact ⟨p, i, rfl⟩
          | deleted => cases hmsg
        obtain rfl := Option.some.inj hmsg
        obtain ⟨x, hx, tm, htm, rfl, rfl⟩ := queued_of_run hgood hmoves ho
        rcases hreach with rfl | ⟨tm', htm', rfl⟩
        · exact hrun _ ho
        · obtain rfl := Option.some.inj (htm.symm.trans htm')
          exact hrun _ ho
    · intro e he huses
      rcases List.mem_append.mp he with he | he
      · obtain ⟨o, ho, rfl⟩ := List.mem_map.mp he
        cases o with
        | run p i =>
            have heq : i = index := huses
            exact hrun p (heq ▸ ho)
        | deleted => exact huses
      · obtain ⟨i, -, rfl⟩ := List.mem_map.mp he
        exact huses
  · rw [hstep]
    refine ⟨⟨h.dead, fun m' hm' => h.unreached m' (hrest hm')⟩, ?_⟩
    intro e he huses
    rw [List.mem_singleton.mp he] at huses
    refine h.unreached m hm (huses.imp_right ?_)
    intro hobject
    exact Option.map_eq_some_iff.mp hobject

/-- A step that fails emits nothing. -/
theorem out_of_error {a : ThreadStep} (hgood : s.use.Good) (ha : s.Allowed a) {e : ObjectFault}
    (herr : (s.step a).result = .error e) : (s.step a).out = [] := by
  cases a with
  | loop b =>
      obtain ⟨hb, -⟩ := ha
      cases hstep : s.use.step b with
      | mk out result =>
          cases result with
          | error e' =>
              have hout := TimerUse.out_of_error hgood hb (e := e') (by rw [hstep])
              rw [hstep] at hout
              rw [step_loop_error hstep, show out = [] from hout]
              rfl
          | ok u =>
              rw [step_loop hstep] at herr
              cases herr
  | execute k =>
      rw [step_execute ha] at herr
      cases herr

/-- From then on it is never used. -/
theorem Silent.run {index : Nat} (h : s.Silent index) (hgood : s.use.Good) {steps : List ThreadStep}
    (hlegal : threadMachine.Legal s steps) : ∀ e ∈ (threadMachine.run s steps).out, ¬e.Uses index := by
  have hinv : threadMachine.Invariant fun s => s.use.Good ∧ s.Silent index := by
    intro s a s' ⟨hgood, hsilent⟩ ha hok
    exact ⟨good_invariant s a s' hgood ha hok, (hsilent.step hgood ha hok).1⟩
  refine hinv.forall_out ?_ ⟨hgood, h⟩ hlegal
  intro s a hs ha e he
  cases hok : (threadMachine.step s a).result with
  | error e' =>
      rw [show (threadMachine.step s a).out = [] from out_of_error hs.1 ha hok] at he
      cases he
  | ok s' => exact (hs.2.step hs.1 ha hok).2 e he

theorem mem_cancels {u : TimerUse} {id : TimerId} {clock : Clock} {index : Nat} :
    index ∈ u.cancels (.delTimerInLoop id clock) ↔ (id, index) ∈ u.issued := by
  simp [TimerUse.cancels]

/-- The events of a cancellation: none of them uses a timer. -/
theorem ends_of_moves {a : TimerStep} {out : List TimerEvent} {u u' : TimerUse}
    (hmoves : u.Moves a out u') {e : ThreadEvent}
    (he : e ∈ out.map .queue ++ (u.cancels a).map .cancelled) {index : Nat} (hends : e.Ends index) :
    ∃ id clock, a = .delTimerInLoop id clock ∧ (∀ o ∈ out, o.handedOver = none) ∧
      u.Targets id index := by
  cases hmoves with
  | newTimer | addTimer | addTimerAt | eventIdle => cases he
  | eventFires =>
      change e ∈ List.map ThreadEvent.queue _ ++ [] at he
      rw [List.append_nil] at he
      obtain ⟨o, ho, rfl⟩ := List.mem_map.mp he
      obtain ⟨x, -, tm, -, rfl⟩ := TimerQueue.mem_runs.mp ho
      rcases hends with heq | heq <;> cases heq
  | @delNothing _ id clock =>
      obtain ⟨i, hi, rfl⟩ := List.mem_map.mp he
      rcases hends with heq | heq <;> cases heq
      exact ⟨id, clock, rfl, by simp, .inl (mem_cancels.mp hi)⟩
  | @delTimer _ id clock x tm _ hx heq htm =>
      refine ⟨id, clock, rfl, by simp [TimerEvent.handedOver], ?_⟩
      rcases List.mem_append.mp he with he | he
      · rw [List.map_singleton, List.mem_singleton] at he
        subst he
        rcases hends with hcase | hcase <;> cases hcase
        exact .inr ⟨x, hx, heq, tm, htm, rfl⟩
      · obtain ⟨i, hi, rfl⟩ := List.mem_map.mp he
        rcases hends with hcase | hcase <;> cases hcase
        exact .inl (mem_cancels.mp hi)

/-- A timer that a step ends is silent, if nothing was under way. -/
theorem silent_of_ends {a : ThreadStep} (hgood : s.use.Good) (ha : s.Allowed a) (hquiet : s.Quiet a)
    (hok : (s.step a).result = .ok s') {e : ThreadEvent} (he : e ∈ (s.step a).out) {index : Nat}
    (hends : e.Ends index) : s'.Silent index := by
  rcases step_cases hgood ha hok with
    ⟨b, out, u, rfl, hmoves, -, hstep, rfl⟩ | ⟨m, -, rest, hstep, -, -⟩
  · rw [hstep] at he
    obtain ⟨id, clock, rfl, hout, htarget⟩ := ends_of_moves hmoves he hends
    have hnone : out.filterMap TimerEvent.handedOver = [] := List.filterMap_eq_nil_iff.mpr hout
    have hdead : u.Dead index := by
      rcases htarget with hid | ⟨x, hx, heq, tm, htm, rfl⟩
      · exact TimerUse.dead_of_cancelled hgood hmoves hid
      · exact TimerUse.dead_of_deleted hgood hmoves hx heq htm
    have hused : index < s.use.queue.sIndexNum := by
      rcases htarget with hid | ⟨x, -, -, tm, htm, rfl⟩
      · exact (hgood.issued id index hid).1
      · exact (hgood.consistent.address _ tm htm).2.2
    rw [hnone, List.append_nil]
    exact ⟨hdead, fun m hm hreach =>
      hquiet m hm index htarget (reaches_of_moves hgood hmoves hused hreach)⟩
  · rw [hstep] at he
    rw [List.mem_singleton.mp he] at hends
    rcases hends with heq | heq <;> cases heq

/-- Within a step nothing is used after its end. -/
theorem noCallbackAfter_step {a : ThreadStep} (hgood : s.use.Good) (ha : s.Allowed a) :
    NoCallbackAfter (s.step a).out := by
  cases hok : (s.step a).result with
  | error e =>
      rw [out_of_error hgood ha hok]
      exact .nil
  | ok s' =>
      rcases step_cases hgood ha hok with
        ⟨b, out, u, -, hmoves, -, hstep, -⟩ | ⟨m, -, rest, hstep, -, -⟩
      · rw [hstep]
        apply List.pairwise_of_forall_mem_list
        intro e he e' he' index hends huses
        obtain ⟨id, clock, -, hout, -⟩ := ends_of_moves hmoves he hends
        rcases List.mem_append.mp he' with he' | he'
        · obtain ⟨o, ho, rfl⟩ := List.mem_map.mp he'
          cases o with
          | run => cases hout _ ho
          | deleted => exact huses
        · obtain ⟨i, -, rfl⟩ := List.mem_map.mp he'
          exact huses
      · rw [hstep]
        exact List.pairwise_singleton ..

theorem noCallbackAfter_run (hgood : s.use.Good) {steps : List ThreadStep}
    (hlegal : (threadMachine.restrict Quiet).Legal s steps) :
    NoCallbackAfter (threadMachine.run s steps).out := by
  have hinv : (threadMachine.restrict Quiet).Invariant fun s => s.use.Good :=
    fun s a s' hgood ha hok => good_invariant s a s' hgood ha.1 hok
  refine hinv.pairwise_out (M := threadMachine.restrict Quiet)
    (fun s a hgood ha => noCallbackAfter_step hgood ha.1) ?_ hgood hlegal
  intro s a s' hgood ha hok e he inputs hinputs e' he' index hends
  have hsilent := silent_of_ends hgood ha.1 ha.2 hok he hends
  exact hsilent.run (good_invariant s a s' hgood ha.1 hok)
    (Machine.legal_of_restrict hinputs) e' he'

end TimerThreads

/-- A program whose queue has just been constructed. -/
def TimerThreads.start (q : TimerQueue) : TimerThreads := ⟨.start q, []⟩

/-- In every run in which no cancellation finds a thread that has yet to start, no timer is used after
it has been cancelled. -/
theorem noCallbackAfterCancel {sentinel : Nat} (hpos : 0 < sentinel) (hlt : sentinel < UINTPTR_MAX)
    {t0 : Timestamp} (ht0 : 0 ≤ t0) (sIndexNum : Nat) (bsetup : Bool) (clock : Clock) :
    ∃ q, TimerQueue.new sIndexNum bsetup sentinel t0 clock = pure q ∧
      ∀ steps, (threadMachine.restrict TimerThreads.Quiet).Legal (.start q) steps →
        NoCallbackAfter (threadMachine.run (.start q) steps).out :=
  ⟨_, TimerQueue.new_eq sIndexNum bsetup hpos ht0 clock, fun _ hlegal =>
    TimerThreads.noCallbackAfter_run (TimerUse.good_new sIndexNum bsetup hpos hlt ht0 clock) hlegal⟩

/-- A repeating timer is cancelled, with the thread that runs it started before or after. -/
def cancelledRun (early : Bool) : List ThreadStep :=
  [.loop (.addTimerAt 2 100 (some 1000) true ⟨0, 10⟩),
    .loop (.eventRead 100 true (fun _ => ⟨0, 100⟩) ⟨90, 100⟩)] ++
  if early then [.execute 0, .loop (.delTimerInLoop (.new 1 2) ⟨90, 100⟩)]
  else [.loop (.delTimerInLoop (.new 1 2) ⟨90, 100⟩), .execute 0]

theorem noCallbackAfterCancel_early :
    ∃ q, TimerQueue.new 0 true 1 10 ⟨0, 10⟩ = pure q ∧
      NoCallbackAfter (threadMachine.run (.start q) (cancelledRun true)).out := by
  obtain ⟨q, hq, hruns⟩ := noCallbackAfterCancel (show 0 < 1 by decide) (by decide)
    (show (0 : Timestamp) ≤ 10 by decide) 0 true ⟨0, 10⟩
  refine ⟨q, hq, hruns (cancelledRun true) ?_⟩
  obtain rfl := Except.ok.inj (congrArg Traced.result hq)
  refine Machine.legal_cons ⟨⟨⟨⟨by decide, by decide, rfl⟩, by decide⟩, trivial⟩, trivial⟩ rfl ?_
  refine Machine.legal_cons ⟨⟨trivial, trivial⟩, trivial⟩ rfl ?_
  refine Machine.legal_cons ⟨Nat.zero_lt_one, trivial⟩ rfl ?_
  refine Machine.legal_cons ⟨⟨.inr ⟨1, List.mem_cons_self ..⟩, trivial⟩, ?_⟩ rfl trivial
  -- the thread has been started, and no other is on its way
  exact fun m hm => by cases hm

/-- Otherwise the thread follows a pointer to a deleted timer. -/
theorem not_noCallbackAfterCancel_late :
    ∃ q, TimerQueue.new 0 true 1 10 ⟨0, 10⟩ = pure q ∧
      threadMachine.Legal (.start q) (cancelledRun false) ∧
      ¬NoCallbackAfter (threadMachine.run (.start q) (cancelledRun false)).out := by
  refine ⟨_, rfl, ?_, ?_⟩
  · refine Machine.legal_cons ⟨⟨⟨by decide, by decide, rfl⟩, by decide⟩, trivial⟩ rfl ?_
    refine Machine.legal_cons ⟨trivial, trivial⟩ rfl ?_
    refine Machine.legal_cons ⟨.inr ⟨1, List.mem_cons_self ..⟩, trivial⟩ rfl ?_
    exact Machine.legal_cons Nat.zero_lt_one rfl trivial
  · intro h
    have hout : NoCallbackAfter [.queue (.run 2 1), .queue (.deleted 1), .cancelled 1,
        .asyncRunProc 1 none] := h
    simp only [NoCallbackAfter, List.pairwise_cons] at hout
    exact hout.2.2.1 _ (List.mem_singleton_self _) 1 (.inl rfl) (.inl rfl)

end WebsocketCpp
