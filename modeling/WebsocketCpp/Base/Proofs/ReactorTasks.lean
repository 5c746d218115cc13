import WebsocketCpp.Base.Reactor

/-!
# Every task is executed once and in order

`tasksInOrder`: whatever order the steps of the loop and of the threads that call `queueInLoop` come
in, `runningTask` executes the tasks in the order of the pushes and leaves none out, and the loop does
not go to sleep on a task that nobody will wake it for.
-/

namespace WebsocketCpp

variable {Task : Type}

namespace LoopPhase

/-- The tasks that have been taken out of `functorList_`. -/
def functor : LoopPhase Task → List Task
  | .executing functor | .inTask functor => functor
  | _ => []

/-- The handlers that `poll` has reported and that are still to be called. -/
def active : LoopPhase Task → List Active
  | .dispatching activeList | .handling activeList => activeList
  | _ => []

/-- In a handler or in a task. -/
def InBody : LoopPhase Task → Prop
  | .handling _ | .inTask _ => True
  | _ => False

/-- From `btaskRunning_ = true` to the end of the last task. -/
def Running : LoopPhase Task → Prop
  | .swapping | .executing _ | .inTask _ => True
  | _ => False

/-- From the swap on, and in `poll`: nothing more is taken out of `functorList_` before `poll`
returns. -/
def Swapped : LoopPhase Task → Prop
  | .polling | .executing _ | .inTask _ => True
  | _ => False

end LoopPhase

namespace ReactorEvent

@[simp] def pushed? : ReactorEvent Task → Option Task
  | .pushed func => some func
  | _ => none

@[simp] def executed? : ReactorEvent Task → Option Task
  | .executed func => some func
  | _ => none

end ReactorEvent

namespace Reactor

/-- The tasks that are still to be executed, in their order. -/
def waiting (s : Reactor Task) : List Task := s.phase.functor ++ s.functorList

/-- The thread has pushed a task and will write to the eventfd. -/
def WillWrite (s : Reactor Task) (tid : Nat) : Prop :=
  s.calls tid = some .pushed ∨ tid = s.threadId ∧ s.calls tid ≠ none

/-- The next access of the thread in `queueInLoop` is an `eventfdWrite`. -/
def Writes (s : Reactor Task) (tid : Nat) : Prop :=
  s.calls tid = some .pushed ∧ ¬s.isInLoopThread tid ∨ s.calls tid = some .wakeup

/-- A thread writes to the eventfd when it is full. -/
def Overflows (s : Reactor Task) (a : ReactorStep Task) : Prop :=
  ∃ tid, a = .proceed tid ∧ s.Writes tid ∧ eventfdMax ≤ s.taskWakeupFd

/-- `poll` will not block for long. -/
def Signalled (s : Reactor Task) : Prop := 0 < s.taskWakeupFd ∨ ∃ tid, s.WillWrite tid

/-- What a step does, one constructor for each way through it. -/
inductive Moves : Reactor Task → ReactorStep Task → List (ReactorEvent Task) → Reactor Task → Prop where
  | poll {s activeList} : s.phase = .polling → activeList.Nodup →
      (.taskHandler ∈ activeList → 0 < s.taskWakeupFd) →
      Moves s (.poll activeList) [] { s with phase := .dispatching activeList }
  | dispatched {s} : s.phase = .dispatching [] → s.calls s.threadId = none →
      Moves s .loop [] { s with phase := .checking }
  | taskWakeupRead {s rest} : s.phase = .dispatching (.taskHandler :: rest) →
      s.calls s.threadId = none → 0 < s.taskWakeupFd →
      Moves s .loop [] { s with taskWakeupFd := 0, phase := .dispatching rest }
  | handEvent {s fd rest} : s.phase = .dispatching (.socket fd :: rest) →
      s.calls s.threadId = none → Moves s .loop [] { s with phase := .handling rest }
  | handled {s rest} : s.phase = .handling rest → s.calls s.threadId = none →
      Moves s .loop [] { s with phase := .dispatching rest }
  | noTask {s} : s.phase = .checking → s.calls s.threadId = none → s.functorList = [] →
      Moves s .loop [] { s with phase := .polling }
  | someTask {s} : s.phase = .checking → s.calls s.threadId = none → s.functorList ≠ [] →
      Moves s .loop [] { s with phase := .starting }
  | start {s} : s.phase = .starting → s.calls s.threadId = none →
      Moves s .loop [] { s with btaskRunning := true, phase := .swapping }
  | swap {s} : s.phase = .swapping → s.calls s.threadId = none →
      Moves s .loop [] { s with functorList := [], phase := .executing s.functorList }
  | execute {s func functor} : s.phase = .executing (func :: functor) →
      s.calls s.threadId = none →
      Moves s .loop [.executed func] { s with phase := .inTask functor }
  | executed {s functor} : s.phase = .inTask functor → s.calls s.threadId = none →
      Moves s .loop [] { s with phase := .executing functor }
  | finish {s} : s.phase = .executing [] → s.calls s.threadId = none →
      Moves s .loop [] { s with btaskRunning := false, phase := .polling }
  | call {s tid func} : s.isInLoopThread tid → s.CanCall tid →
      Moves s (.runInLoop tid func) [.called func] s
  | push {s a tid func} : a = .queueInLoop tid func ∨ a = .runInLoop tid func → s.CanCall tid →
      Moves s a [.pushed func]
        ({ s with functorList := s.functorList ++ [func] }.setCall tid (some .pushed))
  | write {s tid} : s.calls tid = some .pushed → ¬s.isInLoopThread tid →
      s.taskWakeupFd < eventfdMax →
      Moves s (.proceed tid) []
        ({ s with taskWakeupFd := s.taskWakeupFd + 1 }.setCall tid (some .checkRunning))
  | noWrite {s tid} : s.calls tid = some .pushed → s.isInLoopThread tid →
      Moves s (.proceed tid) [] (s.setCall tid (some .checkRunning))
  | running {s tid} : s.calls tid = some .checkRunning → s.btaskRunning = true →
      Moves s (.proceed tid) [] (s.setCall tid (some .wakeup))
  | notRunning {s tid} : s.calls tid = some .checkRunning → s.btaskRunning = false →
      Moves s (.proceed tid) [] (s.setCall tid none)
  | writeAgain {s tid} : s.calls tid = some .wakeup → s.taskWakeupFd < eventfdMax →
      Moves s (.proceed tid) [] ({ s with taskWakeupFd := s.taskWakeupFd + 1 }.setCall tid none)

/-- The invariant of the loop and its callers. -/
structure Awake (s : Reactor Task) : Prop where
  running : s.phase.Running → s.btaskRunning = true
  body : s.calls s.threadId ≠ none → s.phase.InBody
  nodup : s.phase.active.Nodup
  unread : .taskHandler ∈ s.phase.active → 0 < s.taskWakeupFd
  signalled : s.phase.Swapped → s.functorList ≠ [] → s.Signalled

variable {s s' : Reactor Task}

theorem taskWakeupRead_eq (h : 0 < s.taskWakeupFd) :
    s.taskWakeupRead = pure { s with taskWakeupFd := 0 } := by
  rw [taskWakeupRead, eventfdRead, Traced.require_true h, pure_bind, pure_bind]

theorem taskWakeup_eq (h : s.taskWakeupFd < eventfdMax) :
    s.taskWakeup = pure { s with taskWakeupFd := s.taskWakeupFd + 1 } := by
  rw [taskWakeup, eventfdWrite, Traced.require_true h, pure_bind, pure_bind]

theorem taskWakeup_full (h : ¬s.taskWakeupFd < eventfdMax) :
    s.taskWakeup = Traced.fail .assertion := by
  rw [taskWakeup, eventfdWrite, Traced.require_false h]
  rfl

/-- The loop thread always gets on. -/
theorem loop_moves (h : s.Awake) (ha : s.Allowed .loop) :
    ∃ out s', s.loop = ⟨out, .ok s'⟩ ∧ s.Moves .loop out s' := by
  obtain ⟨hpoll, hcall⟩ := ha
  rw [loop]
  cases hphase : s.phase with
  | polling => exact absurd hphase hpoll
  | dispatching activeList =>
      cases activeList with
      | nil => exact ⟨_, _, rfl, .dispatched hphase hcall⟩
      | cons handler rest =>
          cases handler with
          | taskHandler =>
              have hpos : 0 < s.taskWakeupFd :=
                h.unread (hphase ▸ List.mem_cons_self ..)
              refine ⟨_, _, ?_, .taskWakeupRead hphase hcall hpos⟩
              change (s.taskWakeupRead >>= fun s => pure { s with phase := .dispatching rest }) = _
              rw [taskWakeupRead_eq hpos]
              rfl
          | socket fd => exact ⟨_, _, rfl, .handEvent hphase hcall⟩
  | handling rest => exact ⟨_, _, rfl, .handled hphase hcall⟩
  | checking =>
      by_cases hlist : s.functorList = []
      · refine ⟨_, _, ?_, .noTask hphase hcall hlist⟩
        simp only [if_pos (List.isEmpty_iff.mpr hlist)]
        rfl
      · refine ⟨_, _, ?_, .someTask hphase hcall hlist⟩
        simp only [if_neg (mt List.isEmpty_iff.mp hlist)]
        rfl
  | starting => exact ⟨_, _, rfl, .start hphase hcall⟩
  | swapping => exact ⟨_, _, rfl, .swap hphase hcall⟩
  | executing functor =>
      cases functor with
      | nil => exact ⟨_, _, rfl, .finish hphase hcall⟩
      | cons func functor => exact ⟨_, _, rfl, .execute hphase hcall⟩
  | inTask functor => exact ⟨_, _, rfl, .executed hphase hcall⟩

/-- A thread in `queueInLoop` gets on unless the eventfd is full. -/
theorem proceed_moves {tid : Nat} (ha : s.Allowed (.proceed tid)) :
    (∃ out s', s.proceed tid = ⟨out, .ok s'⟩ ∧ s.Moves (.proceed tid) out s') ∨
      s.proceed tid = Traced.fail .assertion ∧ s.Overflows (.proceed tid) := by
  rw [proceed]
  cases hcall : s.calls tid with
  | none => exact absurd hcall ha
  | some call =>
      cases call with
      | pushed =>
          by_cases hloop : s.isInLoopThread tid
          · refine .inl ⟨_, _, ?_, .noWrite hcall hloop⟩
            simp only [hloop, not_true_eq_false, if_false, pure_bind]
            rfl
          · simp only [hloop, not_false_eq_true, if_true]
            by_cases hfull : s.taskWakeupFd < eventfdMax
            · refine .inl ⟨_, _, ?_, .write hcall hloop hfull⟩
              rw [taskWakeup_eq hfull]
              rfl
            · exact .inr ⟨by rw [taskWakeup_full hfull, Traced.fail_bind], tid, rfl,
                .inl ⟨hcall, hloop⟩, Nat.not_lt.mp hfull⟩
      | checkRunning =>
          cases hrun : s.btaskRunning with
          | true => exact .inl ⟨_, _, rfl, .running hcall hrun⟩
          | false => exact .inl ⟨_, _, rfl, .notRunning hcall hrun⟩
      | wakeup =>
          by_cases hfull : s.taskWakeupFd < eventfdMax
          · refine .inl ⟨_, _, ?_, .writeAgain hcall hfull⟩
            change (s.taskWakeup >>= fun s => pure (s.setCall tid none)) = _
            rw [taskWakeup_eq hfull]
            rfl
          · refine .inr ⟨?_, tid, rfl, .inr hcall, Nat.not_lt.mp hfull⟩
            change (s.taskWakeup >>= fun s => pure (s.setCall tid none)) = _
            rw [taskWakeup_full hfull, Traced.fail_bind]

/-- So every step succeeds, except a write to the eventfd when it is full. -/
theorem step_moves (h : s.Awake) {a : ReactorStep Task} (ha : s.Allowed a) :
    (∃ out s', s.step a = ⟨out, .ok s'⟩ ∧ s.Moves a out s') ∨
      s.step a = Traced.fail .assertion ∧ s.Overflows a := by
  cases a with
  | poll activeList => exact .inl ⟨_, _, rfl, .poll ha.1 ha.2.1 ha.2.2⟩
  | loop => exact .inl (loop_moves h ha)
  | runInLoop tid func =>
      by_cases hloop : s.isInLoopThread tid
      · refine .inl ⟨_, _, ?_, .call hloop ha⟩
        rw [step, runInLoop, if_pos hloop]
        rfl
      · refine .inl ⟨_, _, ?_, .push (.inr rfl) ha⟩
        rw [step, runInLoop, if_neg hloop]
        rfl
  | queueInLoop tid func => exact .inl ⟨_, _, rfl, .push (.inl rfl) ha⟩
  | proceed tid => exact proceed_moves ha

/-- The tasks that are waiting when a step ends: those that were, with the one that the step pushes
behind them and without the one that it executes from the front. -/
theorem waiting_moves {a : ReactorStep Task} {out : List (ReactorEvent Task)}
    (hmoves : s.Moves a out s') :
    s.waiting ++ out.filterMap ReactorEvent.pushed? = out.filterMap ReactorEvent.executed? ++ s'.waiting := by
  cases hmoves with
  | poll hphase | dispatched hphase | taskWakeupRead hphase | handEvent hphase | handled hphase
  | noTask hphase | someTask hphase | start hphase | swap hphase | execute hphase
  | executed hphase | finish hphase => simp [waiting, hphase, LoopPhase.functor]
  | call => exact List.append_nil _
  | push | write | noWrite | running | notRunning | writeAgain => simp [waiting, setCall]

theorem Moves.not_overflows {a : ReactorStep Task} {out : List (ReactorEvent Task)} (h : s.Moves a out s') :
    ¬s.Overflows a := by
  rintro ⟨tid, rfl, hwrites, hfull⟩
  cases h with
  | push ha => rcases ha with ha | ha <;> cases ha
  | write hcall hloop hlt | writeAgain hcall hlt => exact absurd hlt (Nat.not_lt.mpr hfull)
  | noWrite hcall hloop =>
      rcases hwrites with hwrites | hwrites
      · exact hwrites.2 hloop
      · simp [hcall] at hwrites
  | running hcall | notRunning hcall => simp [Writes, hcall] at hwrites

/-- No step fails but a write to the eventfd when it is full. -/
theorem result_step_error_iff (h : s.Awake) {a : ReactorStep Task} (ha : s.Allowed a) {e : ObjectFault} :
    (s.step a).result = .error e ↔ e = .assertion ∧ s.Overflows a := by
  rcases step_moves h ha with ⟨out, s', hstep, hmoves⟩ | ⟨hstep, hoverflows⟩
  · simp [hstep, hmoves.not_overflows]
  · simp [hstep, hoverflows, eq_comm]

theorem Moves.threadId_eq {a : ReactorStep Task} {out : List (ReactorEvent Task)} (h : s.Moves a out s') :
    s'.threadId = s.threadId := by
  cases h <;> rfl

/-- A thread that gets on in `queueInLoop`, or enters it, is in the body of a handler or a task if it
is the loop thread. -/
theorem Awake.body_setCall (h : s.Awake) {tid : Nat} {call : Option QueueCall}
    (htid : tid = s.threadId → s.phase.InBody) (hc : (s.setCall tid call).calls s.threadId ≠ none) :
    s.phase.InBody := by
  by_cases heq : tid = s.threadId
  · exact htid heq
  · rw [calls_setCall_of_ne s (Ne.symm heq)] at hc
    exact h.body hc

/-- The call of a thread from which no write is expected is of no importance. -/
theorem Signalled.setCall (h : s.Signalled) {tid : Nat} (hnot : ¬s.WillWrite tid)
    (call : Option QueueCall) : (s.setCall tid call).Signalled := by
  rcases h with hpos | ⟨tid', hwill⟩
  · exact .inl hpos
  · have hne : tid' ≠ tid := by
      rintro rfl
      exact hnot hwill
    refine .inr ⟨tid', ?_⟩
    rwa [WillWrite, calls_setCall_of_ne s hne]

theorem Awake.inBody_of_canCall {tid : Nat} (hcan : s.CanCall tid) (htid : tid = s.threadId) :
    s.phase.InBody := by
  rcases hcan.2 htid.symm with ⟨rest, hphase⟩ | ⟨rest, hphase⟩ <;> rw [hphase] <;> trivial

/-- So is the loop thread when it is in `queueInLoop`. -/
theorem Awake.inBody_of_calls (h : s.Awake) {tid : Nat} {call : QueueCall}
    (hcall : s.calls tid = some call) (htid : tid = s.threadId) : s.phase.InBody := by
  apply h.body
  rw [← htid, hcall]
  exact Option.some_ne_none _

/-- The loop thread is in `queueInLoop` between the swap and `poll` only in a task, and then
`btaskRunning_` is set. -/
theorem Awake.btaskRunning_of_calls (h : s.Awake) {tid : Nat} {call : QueueCall}
    (hcall : s.calls tid = some call) (htid : tid = s.threadId) (hswap : s.phase.Swapped) :
    s.btaskRunning = true := by
  have hin := h.inBody_of_calls hcall htid
  apply h.running
  cases hphase : s.phase with
  | inTask functor => trivial
  | _ => simp_all [LoopPhase.InBody, LoopPhase.Swapped]

/-- Every step keeps the invariant. -/
theorem Awake.moves (h : s.Awake) {a : ReactorStep Task} {out : List (ReactorEvent Task)}
    (hmoves : s.Moves a out s') : s'.Awake := by
  cases hmoves with
  | poll hphase hnodup hwake =>
      have hbody : s.calls s.threadId ≠ none → False := fun hc => by
        have hin := h.body hc
        rw [hphase] at hin
        exact hin
      exact ⟨False.elim, fun hc => (hbody hc).elim, hnodup, hwake, False.elim⟩
  | dispatched hphase hcall => exact ⟨False.elim, absurd hcall, .nil, nofun, False.elim⟩
  | @taskWakeupRead rest hphase hcall hpos =>
      -- poll has reported the handler once, so it is not read again before the next poll
      have hnodup := h.nodup
      rw [hphase] at hnodup
      obtain ⟨hfresh, hrest⟩ := List.nodup_cons.mp hnodup
      exact ⟨False.elim, absurd hcall, hrest, fun hmem => absurd hmem hfresh, False.elim⟩
  | @handEvent fd rest hphase hcall =>
      obtain ⟨-, -, hnodup, hunread, -⟩ := h
      rw [hphase] at hnodup hunread
      exact ⟨False.elim, absurd hcall, hnodup.of_cons, fun hmem => hunread (List.mem_cons_of_mem _ hmem),
        False.elim⟩
  | handled hphase hcall =>
      obtain ⟨-, -, hnodup, hunread, -⟩ := h
      rw [hphase] at hnodup hunread
      exact ⟨False.elim, absurd hcall, hnodup, hunread, False.elim⟩
  | noTask hphase hcall hlist =>
      exact ⟨False.elim, absurd hcall, .nil, nofun, fun _ hne => absurd hlist hne⟩
  | someTask hphase hcall hlist => exact ⟨False.elim, absurd hcall, .nil, nofun, False.elim⟩
  | start hphase hcall => exact ⟨fun _ => rfl, absurd hcall, .nil, nofun, False.elim⟩
  | swap hphase hcall =>
      refine ⟨fun _ => h.running ?_, absurd hcall, .nil, nofun, fun _ hne => absurd rfl hne⟩
      rw [hphase]
      trivial
  | execute hphase hcall | executed hphase hcall =>
      obtain ⟨hrunning, -, -, -, hsignalled⟩ := h
      rw [hphase] at hrunning hsignalled
      exact ⟨hrunning, absurd hcall, .nil, nofun, hsignalled⟩
  | finish hphase hcall =>
      refine ⟨False.elim, absurd hcall, .nil, nofun, fun _ => h.signalled ?_⟩
      rw [hphase]
      trivial
  | call => exact h
  | push _ hcan =>
      exact ⟨h.running, h.body_setCall (Awake.inBody_of_canCall hcan), h.nodup, h.unread,
        fun _ _ => .inr ⟨_, .inl (calls_setCall_self ..)⟩⟩
  | write hcall hloop hfull =>
      exact ⟨h.running, h.body_setCall fun htid => absurd htid.symm hloop, h.nodup,
        fun _ => Nat.succ_pos _, fun _ _ => .inl (Nat.succ_pos _)⟩
  | @noWrite tid hcall hloop =>
      have hwill : (s.setCall tid (some .checkRunning)).WillWrite tid :=
        .inr ⟨hloop.symm, by simp⟩
      exact ⟨h.running, h.body_setCall (h.inBody_of_calls hcall), h.nodup, h.unread,
        fun _ _ => .inr ⟨tid, hwill⟩⟩
  | @running tid hcall hrun =>
      refine ⟨h.running, h.body_setCall (h.inBody_of_calls hcall), h.nodup, h.unread, ?_⟩
      intro hswap hne
      by_cases htid : tid = s.threadId
      · exact .inr ⟨tid, .inr ⟨htid, by simp⟩⟩
      · exact (h.signalled hswap hne).setCall (by simp [WillWrite, hcall, htid]) _
  | @notRunning tid hcall hrun =>
      refine ⟨h.running, h.body_setCall (h.inBody_of_calls hcall), h.nodup, h.unread, ?_⟩
      intro hswap hne
      by_cases htid : tid = s.threadId
      · have hset := h.btaskRunning_of_calls hcall htid hswap
        exact absurd hset (by simp [hrun])
      · exact (h.signalled hswap hne).setCall (by simp [WillWrite, hcall, htid]) _
  | @writeAgain tid hcall hfull =>
      exact ⟨h.running, h.body_setCall (h.inBody_of_calls hcall), h.nodup, fun _ => Nat.succ_pos _,
        fun _ _ => .inl (Nat.succ_pos _)⟩

theorem awake_new (threadId : Nat) : (new threadId : Reactor Task).Awake :=
  ⟨False.elim, fun hc => absurd rfl hc, .nil, nofun, fun _ hne => absurd rfl hne⟩

theorem moves_of_result (h : s.Awake) {a : ReactorStep Task} (ha : s.Allowed a)
    (hok : (s.step a).result = .ok s') :
    s.Moves a (s.step a).out s' := by
  rcases step_moves h ha with ⟨out, s'', hstep, hmoves⟩ | ⟨hstep, -⟩
  · rw [hstep] at hok ⊢
    obtain rfl := Except.ok.inj hok
    exact hmoves
  · rw [hstep] at hok
    cases hok

theorem awake_invariant : (reactorMachine Task).Invariant Awake :=
  fun _ _ _ h ha hok => h.moves (moves_of_result h ha hok)

theorem awake_failsAs : (reactorMachine Task).FailsAs Awake
    fun s a e => e = .assertion ∧ s.Overflows a :=
  fun _ _ _ h ha => result_step_error_iff h ha

/-- Outside of handlers and tasks the loop thread is not in `queueInLoop`. -/
theorem Awake.outside (h : s.Awake) (hphase : ¬s.phase.InBody) : s.calls s.threadId = none := by
  by_contra hc
  exact hphase (h.body hc)

/-! ## One turn of the loop -/

/-- The loop thread can go on alone from one state to the other. -/
def LoopRuns (s : Reactor Task) (out : List (ReactorEvent Task)) (s' : Reactor Task) : Prop :=
  ∃ inputs, (∀ a ∈ inputs, a = .loop) ∧ (reactorMachine Task).Runs s inputs out s'

theorem LoopRuns.refl (s : Reactor Task) : s.LoopRuns [] s := ⟨[], nofun, Machine.runs_nil s⟩

theorem LoopRuns.cons {s₁ s₂ : Reactor Task} {out out' : List (ReactorEvent Task)}
    (hphase : s.phase ≠ .polling) (hcall : s.calls s.threadId = none)
    (hstep : s.step .loop = ⟨out, .ok s₁⟩) (hrest : s₁.LoopRuns out' s₂) :
    s.LoopRuns (out ++ out') s₂ := by
  obtain ⟨inputs, hloop, hruns⟩ := hrest
  exact ⟨.loop :: inputs, by simpa using hloop, Machine.runs_cons ⟨hphase, hcall⟩ hstep hruns⟩

/-- After the swap the tasks are executed one after the other. -/
theorem loopRuns_executing (functor : List Task) {s : Reactor Task}
    (hphase : s.phase = .executing functor) (hcall : s.calls s.threadId = none) :
    s.LoopRuns (functor.map .executed) { s with btaskRunning := false, phase := .polling } := by
  have hne : s.phase ≠ .polling := by simp [hphase]
  induction functor generalizing s with
  | nil =>
      have hfinish : s.step .loop = ⟨[], .ok { s with btaskRunning := false, phase := .polling }⟩ := by
        rw [step, loop, hphase]
        rfl
      exact .cons hne hcall hfinish (.refl _)
  | cons func functor ih =>
      have hexecute : s.step .loop = ⟨[.executed func], .ok { s with phase := .inTask functor }⟩ := by
        rw [step, loop, hphase]
        rfl
      have hreturn : ({ s with phase := .inTask functor } : Reactor Task).LoopRuns
          ([] ++ functor.map .executed) { s with btaskRunning := false, phase := .polling } :=
        .cons nofun hcall rfl (ih (s := { s with phase := .executing functor }) rfl hcall nofun)
      exact .cons hne hcall hexecute hreturn

/-- From the test of `functorList_` on, everything in it is executed. -/
theorem loopRuns_checking (hphase : s.phase = .checking) (hcall : s.calls s.threadId = none) :
    ∃ s', s.LoopRuns (s.functorList.map .executed) s' ∧ s'.phase = .polling ∧ s'.waiting = [] := by
  have hne : s.phase ≠ .polling := by simp [hphase]
  by_cases hlist : s.functorList = []
  · have hcheck : s.step .loop = ⟨[], .ok { s with phase := .polling }⟩ := by
      rw [step, loop, hphase]
      simp only [if_pos (List.isEmpty_iff.mpr hlist)]
      rfl
    rw [hlist]
    exact ⟨_, .cons hne hcall hcheck (.refl _), rfl, hlist⟩
  · have hcheck : s.step .loop = ⟨[], .ok { s with phase := .starting }⟩ := by
      rw [step, loop, hphase]
      simp only [if_neg (mt List.isEmpty_iff.mp hlist)]
      rfl
    have hexecuting := loopRuns_executing s.functorList
      (s := { s with btaskRunning := true, functorList := [], phase := .executing s.functorList })
      rfl hcall
    have hswap : ({ s with btaskRunning := true, phase := .swapping } : Reactor Task).LoopRuns _ _ :=
      .cons nofun hcall rfl hexecuting
    have hstart : ({ s with phase := .starting } : Reactor Task).LoopRuns _ _ :=
      .cons nofun hcall rfl hswap
    exact ⟨_, .cons hne hcall hcheck hstart, rfl, rfl⟩

/-- The tasks that have been pushed are those that have been executed and then those that wait, in
order. -/
def InOrder (events : List (ReactorEvent Task)) (s : Reactor Task) : Prop :=
  events.filterMap ReactorEvent.pushed? = events.filterMap ReactorEvent.executed? ++ s.waiting

/-- Where the loop is about to block on a task, the eventfd is set or a thread is about to set it. -/
def WakesUp (s : Reactor Task) : Prop :=
  s.phase = .polling → s.functorList ≠ [] →
    0 < s.taskWakeupFd ∨ ∃ tid, ¬s.isInLoopThread tid ∧ s.calls tid = some .pushed

/-- When `poll` has returned and the handlers have been called, the loop gets back to `poll` with all
the tasks executed that were waiting. -/
def Drains (s : Reactor Task) : Prop :=
  s.phase = .checking → ∃ s', s.LoopRuns (s.waiting.map .executed) s' ∧ s'.phase = .polling ∧
    s'.waiting = []

theorem Awake.drains (h : s.Awake) : s.Drains := by
  intro hphase
  have hcall : s.calls s.threadId = none := h.outside (by rw [hphase]; exact id)
  have hwaiting : s.waiting = s.functorList := by rw [waiting, hphase]; rfl
  rw [hwaiting]
  exact loopRuns_checking hphase hcall

/-- Only another thread can still have to write while the loop is in `poll`. -/
theorem Awake.wakesUp (h : s.Awake) : s.WakesUp := by
  intro hphase hne
  have hcall : s.calls s.threadId = none := h.outside (by rw [hphase]; exact id)
  rcases h.signalled (by rw [hphase]; trivial) hne with hpos | ⟨tid, hpushed | ⟨rfl, hc⟩⟩
  · exact .inl hpos
  · refine .inr ⟨tid, ?_, hpushed⟩
    rintro rfl
    rw [hcall] at hpushed
    cases hpushed
  · exact absurd hcall hc

end Reactor

/-- In every run the tasks are executed in the order of the pushes and none is left out: those that
wait are executed before the loop is in `poll` again, and it does not go to sleep on them. A run ends
early only if the eventfd is full. -/
theorem tasksInOrder (threadId : Nat) {steps : List (ReactorStep Task)}
    (hlegal : (reactorMachine Task).Legal (.new threadId) steps) :
    (∀ s, ((reactorMachine Task).run (.new threadId) steps).result = .ok s →
      s.InOrder ((reactorMachine Task).run (.new threadId) steps).out ∧ s.WakesUp ∧ s.Drains) ∧
    ∀ e, ((reactorMachine Task).run (.new threadId) steps).result = .error e →
      ∃ before s, before <+: steps ∧
        ((reactorMachine Task).run (.new threadId) before).result = .ok s ∧
        eventfdMax ≤ s.taskWakeupFd := by
  have hnew : (Reactor.new threadId : Reactor Task).Awake := Reactor.awake_new threadId
  refine ⟨?_, ?_⟩
  · intro s hs
    have hawake := Reactor.awake_invariant.run hnew hlegal hs
    refine ⟨?_, hawake.wakesUp, hawake.drains⟩
    exact Reactor.awake_invariant.fifo
      (fun s a s' h ha hok => Reactor.waiting_moves (Reactor.moves_of_result h ha hok))
      hnew hlegal hs
  · intro e herr
    obtain ⟨before, a, s, hpre, hs, -, tid, -, -, hfull⟩ :=
      (Reactor.awake_invariant.result_error_iff Reactor.awake_failsAs hnew hlegal).mp herr
    exact ⟨before, s, (List.prefix_append ..).trans hpre, hs, hfull⟩

/-- A thread pushes a task and has not written yet when the loop executes it, and the task pushes
another one. -/
def nestedTasks : List (ReactorStep Nat) :=
  [.queueInLoop 1 7, .poll [], .loop, .loop, .loop, .loop, .loop, .queueInLoop 0 8, .proceed 1]

theorem tasksInOrder_nested :
    (∀ s, ((reactorMachine Nat).run (.new 0) nestedTasks).result = .ok s →
      s.InOrder ((reactorMachine Nat).run (.new 0) nestedTasks).out ∧ s.WakesUp ∧ s.Drains) ∧
    ∀ e, ((reactorMachine Nat).run (.new 0) nestedTasks).result = .error e →
      ∃ before s, before <+: nestedTasks ∧
        ((reactorMachine Nat).run (.new 0) before).result = .ok s ∧
        eventfdMax ≤ s.taskWakeupFd := by
  apply tasksInOrder 0
  refine Machine.legal_cons ⟨rfl, fun hloop => by cases hloop⟩ rfl ?_
  refine Machine.legal_cons ⟨rfl, .nil, nofun⟩ rfl ?_
  iterate 5 refine Machine.legal_cons ⟨nofun, rfl⟩ rfl ?_
  refine Machine.legal_cons ⟨rfl, fun _ => .inr ⟨[], rfl⟩⟩ rfl ?_
  exact Machine.legal_cons nofun rfl trivial

end WebsocketCpp
