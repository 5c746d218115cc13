import WebsocketCpp.Base.Proofs.ReactorTasks
import WebsocketCpp.Base.ReactorThread
import WebsocketCpp.Misc.Progress

/-!
# The life of a reactor on its thread

`reactorOutlives`: `startLoop` returns a reactor that exists, does not miss the signal, and only
`~ReactorThread` can come too late for the reactor, between the two accesses of `quit`. `loopQuits`: after
`bquit_ = true` the loop polls once at most and is not left asleep, and the tasks that it leaves are those
pushed after the last swap.
-/

namespace WebsocketCpp

variable {Task : Type}

namespace LoopThreadStep

/-- `poll` returns. -/
def isPoll : LoopThreadStep Task → Bool
  | .reactor (.poll _) => true
  | _ => false

end LoopThreadStep

/-- Another thread writes to the eventfd. -/
theorem Reactor.Awake.wakeup {s : Reactor Task} (h : s.Awake) :
    Reactor.Awake { s with taskWakeupFd := s.taskWakeupFd + 1 } :=
  ⟨h.running, h.body, h.nodup, fun _ => Nat.succ_pos _, fun _ _ => .inl (Nat.succ_pos _)⟩

namespace ReactorThread

/-- Where the threads can be, with `loop_` and `bquit_`. -/
def Together : LoopOwner → LoopThread → Bool → Bool → Prop
  | .outside, thread, loop, bquit => thread = .unstarted ∧ loop = false ∧ bquit = false
  | .locking, thread, loop, bquit => bquit = false ∧
    (loop = false ∧ (thread = .failed ∨ thread = .constructing ∨ thread = .publishing) ∨
      loop = true ∧ (thread = .testing ∨ thread = .looping))
  | .waiting, thread, loop, bquit =>
    bquit = false ∧ loop = false ∧ (thread = .failed ∨ thread = .constructing ∨ thread = .publishing)
  | .started, thread, loop, bquit => bquit = false ∧ loop = true ∧ (thread = .testing ∨ thread = .looping)
  | .quitting, thread, loop, bquit | .joining, thread, loop, bquit =>
    bquit = true ∧ loop = true ∧ (thread = .testing ∨ thread = .looping ∨ thread = .finished)
  | .destroyed, thread, loop, _ => loop = false ∧ (thread = .unstarted ∨ thread = .finished)

/-- The invariant of a reactor on its thread. -/
structure Lives (s : ReactorThread Task) : Prop where
  awake : s.reactor.Awake
  idle : s.thread ≠ .looping → s.reactor.phase = .polling
  together : Together s.owner s.thread s.loop s.bquit
  signalled : s.owner = .joining → s.thread = .looping → s.reactor.phase = .polling →
    0 < s.reactor.taskWakeupFd
  fresh : s.thread = .unstarted ∨ s.thread = .constructing → s.reactor.waiting = []

/-- What a step does, one constructor for each way through it. -/
inductive Moves :
    ReactorThread Task → LoopThreadStep Task → List (ReactorEvent Task) → ReactorThread Task → Prop where
  | startLoop {s} (created : Bool) : s.owner = .outside → Moves s (.startLoop created) []
      { s with thread := if created then .constructing else .failed, owner := .locking }
  | returned {s} : s.owner = .locking → s.loop = true → Moves s .lock [] { s with owner := .started }
  | wait {s} : s.owner = .locking → s.loop = false → Moves s .lock [] { s with owner := .waiting }
  | wake {s} : s.owner = .waiting → Moves s .wake [] { s with owner := .locking }
  | construct {s} : s.thread = .constructing → Moves s .threadProc []
      { s with reactor := .new s.reactor.threadId, bquit := false, thread := .publishing }
  | publish {s} : s.thread = .publishing → Moves s .threadProc []
      { s with loop := true, thread := .testing, owner := s.owner.notify }
  | enter {s} : s.thread = .testing → s.bquit = false → Moves s .threadProc [] { s with thread := .looping }
  | leave {s} : s.thread = .testing → s.bquit = true → Moves s .threadProc [] { s with thread := .finished }
  | again {s a out reactor} : s.thread = .looping → s.reactor.Moves a out reactor →
      s.reactor.phase ≠ .polling → reactor.phase = .polling →
      Moves s (.reactor a) out { s with reactor := reactor, thread := .testing }
  | reactor {s a out reactor} : s.thread.alive = true → s.reactor.Moves a out reactor →
      (s.caller a = s.reactor.threadId → s.thread = .looping) →
      (s.caller a ≠ s.reactor.threadId → s.owner = .started) →
      (s.reactor.phase = .polling ∨ reactor.phase ≠ .polling) →
      Moves s (.reactor a) out { s with reactor := reactor }
  | destruct {s} : s.owner = .started → Moves s .destruct [] { s with bquit := true, owner := .quitting }
  | forget {s} : s.owner = .outside → Moves s .destruct [] { s with owner := .destroyed }
  | quit {s} : s.owner = .quitting → s.thread ≠ .finished → s.reactor.taskWakeupFd < eventfdMax →
      Moves s .quit [] { s with
        reactor := { s.reactor with taskWakeupFd := s.reactor.taskWakeupFd + 1 }, owner := .joining }
  | join {s} : s.owner = .joining → s.thread = .finished →
      Moves s .join [] { s with loop := false, owner := .destroyed }

/-- The ways in which a step fails: a write to the eventfd when it is full, and the `eventfdWrite` of
`quit` when the reactor is gone. -/
inductive Fails : ReactorThread Task → LoopThreadStep Task → ObjectFault → Prop where
  | overflow {s a} : s.reactor.Overflows a → Fails s (.reactor a) .assertion
  | full {s} : s.thread ≠ .finished → eventfdMax ≤ s.reactor.taskWakeupFd → Fails s .quit .assertion
  | gone {s} : s.thread = .finished → Fails s .quit .useAfterFree

variable {s s' : ReactorThread Task}

theorem isPolling_iff {phase : LoopPhase Task} : phase.isPolling = true ↔ phase = .polling := by
  cases phase <;> simp [LoopPhase.isPolling]

theorem reactorStep_eq (halive : s.thread.alive = true) {a : ReactorStep Task}
    {out : List (ReactorEvent Task)} {reactor : Reactor Task}
    (hstep : s.reactor.step a = ⟨out, .ok reactor⟩) :
    s.reactorStep a = ⟨out, .ok { s with
      reactor := reactor
      thread := if !s.reactor.phase.isPolling && reactor.phase.isPolling then .testing else s.thread }⟩ := by
  rw [reactorStep, Traced.require_true halive, pure_bind, hstep, Traced.mk_bind]
  exact congrArg (Traced.mk · _) (List.append_nil _)

/-- Only the loop thread gets to `poll`. -/
theorem phase_eq_of_caller {a : ReactorStep Task} {out : List (ReactorEvent Task)} {reactor : Reactor Task}
    (hmoves : s.reactor.Moves a out reactor) (hcaller : s.caller a ≠ s.reactor.threadId) :
    reactor.phase = s.reactor.phase := by
  cases hmoves with
  | call | write | noWrite | running | notRunning | writeAgain => rfl
  | push => rfl
  | _ => exact absurd rfl hcaller

/-- While the loop thread is in `poll`, it can only return from there. -/
theorem phase_of_polling (h : s.reactor.Awake) (hphase : s.reactor.phase = .polling) {a : ReactorStep Task}
    {out : List (ReactorEvent Task)} {reactor : Reactor Task} (hmoves : s.reactor.Moves a out reactor)
    (hcaller : s.caller a = s.reactor.threadId) : ∃ activeList, reactor.phase = .dispatching activeList := by
  have hbody : ¬s.reactor.phase.InBody := by
    rw [hphase]
    exact id
  have hcalls : ∀ {tid call}, s.reactor.calls tid = some call → tid ≠ s.reactor.threadId :=
    fun hcall htid => hbody (h.inBody_of_calls hcall htid)
  cases hmoves with
  | poll => exact ⟨_, rfl⟩
  | dispatched hphase' | taskWakeupRead hphase' | handEvent hphase' | handled hphase' | noTask hphase'
  | someTask hphase' | start hphase' | swap hphase' | execute hphase' | executed hphase'
  | finish hphase' => simp [hphase] at hphase'
  | call hloop hcan => exact absurd (Reactor.Awake.inBody_of_canCall hcan hcaller) hbody
  | push ha hcan =>
      rcases ha with rfl | rfl
      · exact absurd (Reactor.Awake.inBody_of_canCall hcan hcaller) hbody
      · exact absurd (Reactor.Awake.inBody_of_canCall hcan hcaller) hbody
  | write hcall | noWrite hcall | running hcall | notRunning hcall | writeAgain hcall =>
      exact absurd hcaller (hcalls hcall)

theorem Lives.alive_of_looping (h : s.thread = .looping) : s.thread.alive = true := by
  rw [h]
  rfl

theorem Lives.alive_of_started (h : s.Lives) (howner : s.owner = .started) : s.thread.alive = true := by
  have htogether := h.together
  rw [howner] at htogether
  rcases htogether.2.2 with hthread | hthread <;> rw [hthread] <;> rfl

theorem reactorStep_moves (h : s.Lives) {a : ReactorStep Task} (ha : s.Allowed (.reactor a)) :
    (∃ out s', s.step (.reactor a) = ⟨out, .ok s'⟩ ∧ s.Moves (.reactor a) out s') ∨
      ∃ e, s.step (.reactor a) = Traced.fail e ∧ s.Fails (.reactor a) e := by
  rcases ha with ⟨ha, hplace⟩
  have halive : s.thread.alive = true := by
    split at hplace
    · exact Lives.alive_of_looping hplace
    · exact h.alive_of_started hplace
  rcases Reactor.step_moves h.awake ha with ⟨out, reactor, hstep, hmoves⟩ | ⟨hstep, hoverflows⟩
  · refine .inl ⟨out, _, reactorStep_eq halive hstep, ?_⟩
    by_cases hended : s.reactor.phase ≠ .polling ∧ reactor.phase = .polling
    · have hcaller : s.caller a = s.reactor.threadId := by
        by_contra hne
        exact hended.1 ((phase_eq_of_caller hmoves hne).symm.trans hended.2)
      rw [if_pos hcaller] at hplace
      simp only [Bool.eq_false_iff.mpr (mt isPolling_iff.mp hended.1), isPolling_iff.mpr hended.2]
      exact .again hplace hmoves hended.1 hended.2
    · have hsame : (!s.reactor.phase.isPolling && reactor.phase.isPolling) = false := by
        rw [Bool.eq_false_iff]
        intro hboth
        rw [Bool.and_eq_true, Bool.not_eq_true', Bool.eq_false_iff, ne_eq, isPolling_iff, isPolling_iff]
          at hboth
        exact hended hboth
      simp only [hsame]
      refine .reactor halive hmoves ?_ ?_ ?_
      · intro hcaller
        rwa [if_pos hcaller] at hplace
      · intro hcaller
        rwa [if_neg hcaller] at hplace
      · by_cases hpoll : s.reactor.phase = .polling
        · exact .inl hpoll
        · exact .inr fun hpoll' => hended ⟨hpoll, hpoll'⟩
  · refine .inr ⟨.assertion, ?_, .overflow hoverflows⟩
    change s.reactorStep a = _
    rw [reactorStep, Traced.require_true halive, pure_bind, hstep]
    rfl

/-- A step that is allowed does what `Moves` says or fails as `Fails` says. -/
theorem step_moves (h : s.Lives) {a : LoopThreadStep Task} (ha : s.Allowed a) :
    (∃ out s', s.step a = ⟨out, .ok s'⟩ ∧ s.Moves a out s') ∨
      ∃ e, s.step a = Traced.fail e ∧ s.Fails a e := by
  have htogether := h.together
  cases a with
  | startLoop created => exact .inl ⟨_, _, rfl, .startLoop created ha⟩
  | lock =>
      refine .inl ⟨_, _, rfl, ?_⟩
      rw [lock]
      by_cases hloop : s.loop = true
      · rw [if_pos hloop]
        exact .returned ha hloop
      · rw [if_neg hloop]
        exact .wait ha (Bool.eq_false_iff.mpr hloop)
  | wake => exact .inl ⟨_, _, rfl, .wake ha⟩
  | threadProc =>
      refine .inl ⟨_, _, rfl, ?_⟩
      rw [threadProc]
      rcases ha with hthread | hthread | hthread
      · rw [hthread]
        exact .construct hthread
      · rw [hthread]
        exact .publish hthread
      · rw [hthread]
        by_cases hquit : s.bquit = true
        · simp only [if_pos hquit]
          exact .leave hthread hquit
        · simp only [if_neg hquit]
          exact .enter hthread (Bool.eq_false_iff.mpr hquit)
  | reactor a => exact reactorStep_moves h ha
  | destruct =>
      rcases ha with howner | ⟨howner, -⟩
      · rw [howner] at htogether
        refine .inl ⟨_, _, ?_, .forget howner⟩
        rw [step, destruct, htogether.2.1]
        rfl
      · have halive := h.alive_of_started howner
        rw [howner] at htogether
        refine .inl ⟨_, _, ?_, .destruct howner⟩
        rw [step, destruct, htogether.2.1, Traced.require_true halive]
        rfl
  | quit =>
      change s.owner = .quitting at ha
      rw [ha] at htogether
      by_cases hfinished : s.thread = .finished
      · refine .inr ⟨.useAfterFree, ?_, .gone hfinished⟩
        rw [step, quit, Traced.require_false (by simp [hfinished, LoopThread.alive])]
        rfl
      · have halive : s.thread.alive = true := by
          rcases htogether.2.2 with hthread | hthread | hthread
          · rw [hthread]
            rfl
          · rw [hthread]
            rfl
          · exact absurd hthread hfinished
        rw [step, quit, Traced.require_true halive]
        by_cases hfull : s.reactor.taskWakeupFd < eventfdMax
        · refine .inl ⟨_, _, ?_, .quit ha hfinished hfull⟩
          rw [Reactor.taskWakeup_eq hfull]
          rfl
        · refine .inr ⟨.assertion, ?_, .full hfinished (Nat.not_lt.mp hfull)⟩
          rw [Reactor.taskWakeup_full hfull]
          rfl
  | join => exact .inl ⟨_, _, rfl, .join ha.1 ha.2⟩

theorem Moves.not_fails {a : LoopThreadStep Task} {out : List (ReactorEvent Task)} (h : s.Moves a out s')
    (e : ObjectFault) : ¬s.Fails a e := by
  intro hfails
  cases hfails with
  | overflow hoverflows =>
      cases h with
      | again _ hmoves | reactor _ hmoves => exact hmoves.not_overflows hoverflows
  | full _ hfull =>
      cases h with
      | quit _ _ hlt => exact absurd hlt (Nat.not_lt.mpr hfull)
  | gone hfinished =>
      cases h with
      | quit _ hthread => exact hthread hfinished

theorem Fails.unique {a : LoopThreadStep Task} {e e' : ObjectFault} (h : s.Fails a e) (h' : s.Fails a e') :
    e = e' := by
  cases h with
  | overflow =>
      cases h'
      rfl
  | full hthread =>
      cases h' with
      | full => rfl
      | gone hfinished => exact absurd hfinished hthread
  | gone hfinished =>
      cases h' with
      | full hthread => exact absurd hfinished hthread
      | gone => rfl

theorem result_step_error_iff (h : s.Lives) {a : LoopThreadStep Task} (ha : s.Allowed a) {e : ObjectFault} :
    (s.step a).result = .error e ↔ s.Fails a e := by
  rcases step_moves h ha with ⟨out, s', hstep, hmoves⟩ | ⟨e', hstep, hfails⟩
  · simp [hstep, hmoves.not_fails e]
  · rw [hstep]
    constructor
    · rintro ⟨⟩
      exact hfails
    · intro he
      rw [hfails.unique he]
      rfl

theorem lives_new (threadId : Nat) : (new threadId : ReactorThread Task).Lives :=
  ⟨Reactor.awake_new threadId, fun _ => rfl, ⟨rfl, rfl, rfl⟩, nofun, fun _ => rfl⟩

theorem Lives.moves (h : s.Lives) {a : LoopThreadStep Task} {out : List (ReactorEvent Task)}
    (hmoves : s.Moves a out s') : s'.Lives := by
  have htogether := h.together
  cases hmoves with
  | startLoop created howner =>
      rw [howner] at htogether
      have hidle := h.idle (by rw [htogether.1]; nofun)
      refine ⟨h.awake, fun _ => hidle, ⟨htogether.2.2, .inl ⟨htogether.2.1, ?_⟩⟩, nofun,
        fun _ => h.fresh (.inl htogether.1)⟩
      cases created
      · exact .inl rfl
      · exact .inr (.inl rfl)
  | returned howner hloop =>
      rw [howner, hloop] at htogether
      exact ⟨h.awake, h.idle, by simpa [Together, hloop] using htogether, nofun, h.fresh⟩
  | wait howner hloop =>
      rw [howner, hloop] at htogether
      exact ⟨h.awake, h.idle, by simpa [Together, hloop] using htogether, nofun, h.fresh⟩
  | wake howner =>
      rw [howner] at htogether
      exact ⟨h.awake, h.idle, ⟨htogether.1, .inl htogether.2⟩, nofun, h.fresh⟩
  | construct hthread =>
      rw [hthread] at htogether
      refine ⟨Reactor.awake_new _, fun _ => rfl, ?_, nofun, fun _ => rfl⟩
      cases howner : s.owner <;> simp_all [Together]
  | publish hthread =>
      rw [hthread] at htogether
      have hidle := h.idle (by rw [hthread]; nofun)
      refine ⟨h.awake, fun _ => hidle, ?_, nofun, by simp⟩
      cases howner : s.owner <;> simp_all [Together, LoopOwner.notify]
  | enter hthread hquit =>
      rw [hthread, hquit] at htogether
      refine ⟨h.awake, nofun, ?_, ?_, by simp⟩
      · cases howner : s.owner <;> simp_all [Together]
      · intro howner
        rw [howner] at htogether
        exact absurd htogether.1 (by simp)
  | leave hthread hquit =>
      rw [hthread, hquit] at htogether
      have hidle := h.idle (by rw [hthread]; nofun)
      refine ⟨h.awake, fun _ => hidle, ?_, nofun, by simp⟩
      cases howner : s.owner <;> simp_all [Together]
  | again hthread hmoves hphase hphase' =>
      rw [hthread] at htogether
      refine ⟨h.awake.moves hmoves, fun _ => hphase', ?_, nofun, by simp⟩
      cases howner : s.owner <;> simp_all [Together]
  | @reactor a out reactor halive hmoves hmine hother hphase =>
      refine ⟨h.awake.moves hmoves, ?_, htogether, ?_, ?_⟩
      · intro hthread
        have hcaller : s.caller a ≠ s.reactor.threadId := fun hcaller => hthread (hmine hcaller)
        rw [phase_eq_of_caller hmoves hcaller]
        exact h.idle hthread
      · intro howner hthread hpolling
        have hcaller : s.caller a = s.reactor.threadId := by
          by_contra hne
          have hstarted := hother hne
          rw [howner] at hstarted
          cases hstarted
        have hpolled := hphase.resolve_right (not_not_intro hpolling)
        rcases phase_of_polling h.awake hpolled hmoves hcaller with ⟨activeList, hdispatching⟩
        rw [hdispatching] at hpolling
        cases hpolling
      · intro hfresh
        have hthread : s.thread = .unstarted ∨ s.thread = .constructing := hfresh
        rcases hthread with hthread | hthread <;> rw [hthread] at halive <;> simp [LoopThread.alive] at halive
  | destruct howner =>
      rw [howner] at htogether
      exact ⟨h.awake, h.idle, ⟨rfl, htogether.2.1, htogether.2.2.imp_right .inl⟩, nofun, h.fresh⟩
  | forget howner =>
      rw [howner] at htogether
      exact ⟨h.awake, h.idle, ⟨htogether.2.1, .inl htogether.1⟩, nofun, h.fresh⟩
  | quit howner hthread hfull =>
      rw [howner] at htogether
      exact ⟨h.awake.wakeup, h.idle, htogether, fun _ _ _ => Nat.succ_pos _, h.fresh⟩
  | join howner hthread =>
      have hidle := h.idle (by rw [hthread]; nofun)
      exact ⟨h.awake, fun _ => hidle, ⟨rfl, .inr hthread⟩, nofun, h.fresh⟩

theorem moves_of_result (h : s.Lives) {a : LoopThreadStep Task} (ha : s.Allowed a)
    (hok : (s.step a).result = .ok s') : s.Moves a (s.step a).out s' := by
  rcases step_moves h ha with ⟨out, s'', hstep, hmoves⟩ | ⟨e, hstep, -⟩
  · rw [hstep] at hok ⊢
    rcases Except.ok.inj hok
    exact hmoves
  · rw [hstep] at hok
    cases hok

theorem lives_invariant : (reactorThreadMachine Task).Invariant Lives :=
  fun _ _ _ h ha hok => h.moves (moves_of_result h ha hok)

/-- `bquit_` has been set. -/
def Quits (s : ReactorThread Task) : Prop := s.Lives ∧ s.bquit = true

/-- The loop can still come back from `poll`. -/
def polls (s : ReactorThread Task) : Nat :=
  if s.thread = .looping ∧ s.reactor.phase.isPolling = true then 1 else 0

theorem polls_le (h : s'.thread = .looping → s'.reactor.phase = .polling →
    s.thread = .looping ∧ s.reactor.phase = .polling) : s'.polls ≤ s.polls := by
  unfold polls
  split
  · rename_i hpolling
    rcases h hpolling.1 (isPolling_iff.mp hpolling.2) with ⟨hthread, hphase⟩
    exact Nat.le_of_eq (if_pos ⟨hthread, isPolling_iff.mpr hphase⟩).symm
  · exact Nat.zero_le _

theorem Quits.moves (h : s.Quits) {a : LoopThreadStep Task} {out : List (ReactorEvent Task)}
    (hmoves : s.Moves a out s') : s'.Quits := by
  refine ⟨h.1.moves hmoves, ?_⟩
  have hquit := h.2
  have htogether := h.1.together
  cases hmoves with
  | construct hthread =>
      rw [hthread, hquit] at htogether
      cases howner : s.owner <;> simp_all [Together]
  | destruct => rfl
  | _ => exact hquit

/-- Once `bquit_` is set the loop does not go into `poll` again. -/
theorem Quits.polls_moves (h : s.Quits) {a : LoopThreadStep Task} {out : List (ReactorEvent Task)}
    (hmoves : s.Moves a out s') : (if a.isPoll then 1 else 0) + s'.polls ≤ s.polls := by
  have hquit := h.2
  have htogether := h.1.together
  have hrest : a.isPoll = false → (s'.thread = .looping → s'.reactor.phase = .polling →
      s.thread = .looping ∧ s.reactor.phase = .polling) →
      (if a.isPoll then 1 else 0) + s'.polls ≤ s.polls := by
    intro hnot hle
    rw [hnot, if_neg (by simp), Nat.zero_add]
    exact polls_le hle
  cases hmoves with
  | startLoop created howner =>
      rw [howner, hquit] at htogether
      exact absurd htogether.2.2 (by simp)
  | construct | publish | leave => exact hrest rfl nofun
  | enter hthread hquit' => simp [hquit] at hquit'
  | returned | wait | wake | destruct | forget | quit | join =>
      exact hrest rfl fun hthread hphase => ⟨hthread, hphase⟩
  | @again a out reactor hthread hmoves hphase hphase' =>
      refine hrest ?_ nofun
      cases hmoves with
      | poll hpolling => exact absurd hpolling hphase
      | push ha => rcases ha with rfl | rfl <;> rfl
      | _ => rfl
  | @reactor a out reactor halive hmoves hmine hother hphase =>
      have hback : reactor.phase = .polling → s.reactor.phase = .polling := fun hpolling =>
        hphase.resolve_right (not_not_intro hpolling)
      have hother' : (LoopThreadStep.reactor a).isPoll = false →
          (if (LoopThreadStep.reactor a).isPoll then 1 else 0) + polls { s with reactor := reactor } ≤
            s.polls :=
        fun hnot => hrest hnot fun hthread hpolling => ⟨hthread, hback hpolling⟩
      cases hmoves with
      | poll hpolling =>
          -- the only one: it leaves the loop in its body
          have hthread : s.thread = .looping := hmine rfl
          simp [LoopThreadStep.isPoll, polls, hthread, hpolling, LoopPhase.isPolling]
      | push ha => rcases ha with rfl | rfl <;> exact hother' rfl
      | _ => exact hother' rfl

/-- The tasks that are still to be executed, as in `Reactor.waiting_moves`. -/
theorem waiting_moves (h : s.Lives) {a : LoopThreadStep Task} {out : List (ReactorEvent Task)}
    (hmoves : s.Moves a out s') :
    s.reactor.waiting ++ out.filterMap ReactorEvent.pushed? =
      out.filterMap ReactorEvent.executed? ++ s'.reactor.waiting := by
  cases hmoves with
  | construct hthread =>
      rw [h.fresh (.inr hthread)]
      rfl
  | again _ hmoves | reactor _ hmoves => exact Reactor.waiting_moves hmoves
  | _ => exact List.append_nil _

/-- The thread, or `join`, can always go on. -/
theorem Lives.exists_allowed (h : s.Lives) (howner : s.owner = .joining) : ∃ a, s.Allowed a := by
  have htogether := h.together
  rw [howner] at htogether
  rcases htogether.2.2 with hthread | hthread | hthread
  · exact ⟨.threadProc, .inr (.inr hthread)⟩
  · have hmine : ∀ a : ReactorStep Task, s.caller a = s.reactor.threadId → s.reactor.Allowed a →
        ∃ a, s.Allowed a := fun a hcaller ha => ⟨.reactor a, ha, by rwa [if_pos hcaller]⟩
    by_cases hphase : s.reactor.phase = .polling
    · exact hmine (.poll []) rfl ⟨hphase, .nil, nofun⟩
    · by_cases hcall : s.reactor.calls s.reactor.threadId = none
      · exact hmine .loop rfl ⟨hphase, hcall⟩
      · exact hmine (.proceed s.reactor.threadId) rfl hcall
  · exact ⟨.join, howner, hthread⟩

theorem quits_invariant : (reactorThreadMachine Task).Invariant Quits :=
  fun _ _ _ h ha hok => h.moves (moves_of_result h.1 ha hok)

theorem quits_costs : (reactorThreadMachine Task).Costs Quits LoopThreadStep.isPoll polls :=
  fun _ _ _ h ha hok => h.polls_moves (moves_of_result h.1 ha hok)

end ReactorThread

/-- A reactor is started and its `ReactorThread` destroyed, up to `bquit_ = true`. -/
def quitStarted : List (LoopThreadStep Nat) :=
  [.startLoop true, .lock, .threadProc, .threadProc, .lock, .threadProc, .destruct]

/-- The reactor after these steps, in `poll`. -/
def quitStartedThread : ReactorThread Nat where
  reactor := .new 1
  bquit := true
  loop := true
  thread := .looping
  owner := .quitting

theorem quitStarted_runs : (reactorThreadMachine Nat).Runs (.new 1) quitStarted [] quitStartedThread := by
  refine ⟨?_, rfl⟩
  refine Machine.legal_cons rfl rfl ?_
  refine Machine.legal_cons rfl rfl ?_
  refine Machine.legal_cons (.inl rfl) rfl ?_
  refine Machine.legal_cons (.inr (.inl rfl)) rfl ?_
  refine Machine.legal_cons rfl rfl ?_
  refine Machine.legal_cons (.inr (.inr rfl)) rfl ?_
  exact Machine.legal_cons (.inr ⟨rfl, fun _ _ => rfl⟩) rfl trivial

/-- Once `bquit_` is set the loop comes back from `poll` once at most, does not stay there for long when
`quit` has returned, and is never blocked. What it leaves behind, of the tasks that have been pushed, is
what has been pushed since the last swap. -/
theorem loopQuits (threadId : Nat) {steps : List (LoopThreadStep Task)}
    (hlegal : (reactorThreadMachine Task).Legal (.new threadId) steps) {s : ReactorThread Task}
    (hs : ((reactorThreadMachine Task).run (.new threadId) steps).result = .ok s) (hquit : s.bquit = true)
    {inputs : List (LoopThreadStep Task)} {out : List (ReactorEvent Task)} {s' : ReactorThread Task}
    (hruns : (reactorThreadMachine Task).Runs s inputs out s') :
    inputs.countP LoopThreadStep.isPoll ≤ 1 ∧
    (s'.owner = .joining → (∃ a, s'.Allowed a) ∧
      (s'.thread = .looping → s'.reactor.phase = .polling → 0 < s'.reactor.taskWakeupFd)) ∧
    (s'.thread = .finished →
      (((reactorThreadMachine Task).run (.new threadId) steps).out ++ out).filterMap ReactorEvent.pushed? =
        (((reactorThreadMachine Task).run (.new threadId) steps).out ++ out).filterMap
          ReactorEvent.executed? ++ s'.reactor.functorList) := by
  have hnew : (ReactorThread.new threadId : ReactorThread Task).Lives := ReactorThread.lives_new threadId
  have hlives := ReactorThread.lives_invariant.run hnew hlegal hs
  rcases hruns with ⟨hlegal', hrun⟩
  have hok : ((reactorThreadMachine Task).run s inputs).result = .ok s' := congrArg Traced.result hrun
  have hlives' := ReactorThread.lives_invariant.run hlives hlegal' hok
  refine ⟨?_, ?_, ?_⟩
  · have hcount :=
      ReactorThread.quits_invariant.countP_le ReactorThread.quits_costs ⟨hlives, hquit⟩ hlegal' hok
    have hone : s.polls ≤ 1 := by
      unfold ReactorThread.polls
      split <;> omega
    omega
  · intro howner
    exact ⟨hlives'.exists_allowed howner, hlives'.signalled howner⟩
  · intro hthread
    have hfirst := ReactorThread.lives_invariant.fifo
      (fun s a s' h ha hok => ReactorThread.waiting_moves h (ReactorThread.moves_of_result h ha hok))
      hnew hlegal hs
    have hsecond := ReactorThread.lives_invariant.fifo
      (fun s a s' h ha hok => ReactorThread.waiting_moves h (ReactorThread.moves_of_result h ha hok))
      hlives hlegal' hok
    have hwaiting : s'.reactor.waiting = s'.reactor.functorList := by
      rw [Reactor.waiting, hlives'.idle (by simp [hthread])]
      rfl
    rw [hrun] at hsecond
    rw [List.filterMap_append, List.filterMap_append, List.append_assoc, ← hwaiting, ← hsecond,
      ← List.append_assoc]
    exact congrArg (· ++ _) hfirst

/-- `quit` writes to the eventfd, `poll` reports it, and the loop ends. -/
def earlyQuit : List (LoopThreadStep Nat) :=
  [.quit, .reactor (.poll [.taskHandler]), .reactor .loop, .reactor .loop, .reactor .loop, .threadProc]

theorem loopQuits_earlyQuit :
    ∃ s' : ReactorThread Nat, s'.thread = .finished ∧ earlyQuit.countP LoopThreadStep.isPoll ≤ 1 ∧
      ∃ a, s'.Allowed a := by
  have hlegal : (reactorThreadMachine Nat).Legal quitStartedThread earlyQuit := by
    refine Machine.legal_cons rfl rfl ?_
    refine Machine.legal_cons ⟨⟨rfl, by simp, fun _ => Nat.succ_pos _⟩, rfl⟩ rfl ?_
    refine Machine.legal_cons ⟨⟨nofun, rfl⟩, rfl⟩ rfl ?_
    refine Machine.legal_cons ⟨⟨nofun, rfl⟩, rfl⟩ rfl ?_
    refine Machine.legal_cons ⟨⟨nofun, rfl⟩, rfl⟩ rfl ?_
    exact Machine.legal_cons (.inr (.inr rfl)) rfl trivial
  have hquits := loopQuits 1 quitStarted_runs.1 (congrArg Traced.result quitStarted_runs.2) rfl ⟨hlegal, rfl⟩
  exact ⟨_, rfl, hquits.1, (hquits.2.1 rfl).1⟩

end WebsocketCpp
