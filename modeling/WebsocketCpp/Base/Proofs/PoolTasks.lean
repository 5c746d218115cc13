import WebsocketCpp.Base.ThreadPool
import WebsocketCpp.Misc.Progress

/-!
# No task of the pool is lost

`poolTasks`: the tasks are taken in the order of the calls of `run`, and every one is executed once, is
held by a thread or is still in `taskList_`. `poolDrains`: no wake-up is lost, so that the threads come
to rest only when `taskList_` is empty, in whatever order they run.
-/

namespace WebsocketCpp

variable {Task : Type}

namespace PoolEvent

@[simp] def pushed? : PoolEvent Task → Option (Option Task)
  | .pushed fun_ => some fun_
  | _ => none

/-- The task that `run` has been called with, if it is not empty. -/
@[simp] def given? : PoolEvent Task → Option Task
  | .pushed fun_ => fun_
  | _ => none

@[simp] def taken? : PoolEvent Task → Option (Option Task)
  | .taken t => some t
  | _ => none

@[simp] def executed? : PoolEvent Task → Option Task
  | .executed t => some t
  | _ => none

end PoolEvent

namespace PoolThread

/-- How many steps the thread can take before it is asleep or at its end, without a new task. -/
def rank (brunning : Bool) : PoolThread Task → Nat
  | .unstarted | .waiting | .exited => 0
  | .looping => if brunning then 2 else 1
  | .locking => if brunning then 1 else 4
  | .inTask | .holding none => if brunning then 3 else 2
  | .holding (some _) => if brunning then 4 else 3

@[simp] theorem isWaiting_iff {thread : PoolThread Task} : thread.isWaiting ↔ thread = .waiting := by
  cases thread <;> simp [isWaiting]

@[simp] theorem held_wake (thread : PoolThread Task) : thread.wake.held = thread.held := by
  cases thread <;> rfl

end PoolThread

namespace ThreadPool

/-- The threads that are asleep. -/
def sleepers (s : ThreadPool Task) : Nat := s.threadList.countP PoolThread.isWaiting

/-- The threads on their way to `taskList_`. -/
def lockers (s : ThreadPool Task) : Nat := s.threadList.countP PoolThread.isLocking

/-- The tasks that threads have taken and not called yet. -/
def held (s : ThreadPool Task) : List Task := s.threadList.filterMap PoolThread.held

/-- The tasks that are still to be executed. -/
def pending (s : ThreadPool Task) : List Task := s.held ++ s.taskList.filterMap id

/-- How many steps the threads can take before they are asleep or at their end. -/
def work (s : ThreadPool Task) : Nat :=
  (if s.brunning then 4 * s.taskList.length else 0) + (s.threadList.map (PoolThread.rank s.brunning)).sum

/-- A signal that is not wasted on a thread that is awake while another one is asleep. -/
def Signals (s : ThreadPool Task) (woken : Nat → Bool) : Prop :=
  PoolThread.waiting ∈ s.threadList → ∃ i, woken i ∧ s.threadList[i]? = some .waiting

/-- What a step does, one constructor for each way through it. -/
inductive Moves : ThreadPool Task → PoolStep Task → List (PoolEvent Task) → ThreadPool Task → Prop where
  | start {s threadNum} : s.owner = .outside → s.threadList = [] →
      Moves s (.start threadNum) [] { s with brunning := true, owner := .starting threadNum }
  | create {s left} (created : Bool) : s.owner = .starting (left + 1) →
      Moves s (.create created) [] { s with
        threadList := s.threadList ++ [if created then .looping else .unstarted]
        owner := .starting left }
  | started {s created} : s.owner = .starting 0 → Moves s (.create created) [] { s with owner := .outside }
  | stop {s} : s.owner = .outside → Moves s .stop [] s.stop
  | join {s i} : s.owner = .joining i → s.threadList[i]? = some .exited →
      Moves s .join [] { s with owner := .joining (i + 1) }
  | joined {s i} : s.owner = .joining i → s.threadList[i]? = none →
      Moves s .join [] { s with threadList := [], owner := .outside }
  | run {s fun_ woken} : s.threadList ≠ [] → s.Signals woken →
      Moves s (.run fun_ woken) [.pushed fun_] ({ s with taskList := s.taskList ++ [fun_] }.notify woken)
  | wake {s i} : s.threadList[i]? = some .waiting → Moves s (.wake i) [] (s.notify (· = i))
  | loop {s i} : s.threadList[i]? = some .looping → s.brunning = true →
      Moves s (.runInThread i) [] (s.setThread i .locking)
  | exit {s i} : s.threadList[i]? = some .looping → s.brunning = false →
      Moves s (.runInThread i) [] (s.setThread i .exited)
  | wait {s i} : s.threadList[i]? = some .locking → s.taskList = [] → s.brunning = true →
      Moves s (.runInThread i) [] (s.setThread i .waiting)
  | noTask {s i} : s.threadList[i]? = some .locking → s.taskList = [] → s.brunning = false →
      Moves s (.runInThread i) [] (s.setThread i (.holding none))
  | take {s i t rest} : s.threadList[i]? = some .locking → s.taskList = t :: rest →
      Moves s (.runInThread i) [.taken t] ({ s with taskList := rest }.setThread i (.holding t))
  | execute {s i t} : s.threadList[i]? = some (.holding (some t)) →
      Moves s (.runInThread i) [.executed t] (s.setThread i .inTask)
  | sleepUsec {s i} : s.threadList[i]? = some (.holding none) →
      Moves s (.runInThread i) [] (s.setThread i .looping)
  | executed {s i} : s.threadList[i]? = some .inTask →
      Moves s (.runInThread i) [] (s.setThread i .looping)

/-- The steps at which an `assert` fails. -/
inductive Refuses : ThreadPool Task → PoolStep Task → Prop where
  | start {s threadNum} : s.threadList ≠ [] → Refuses s (.start threadNum)
  | run {s fun_ woken} : s.threadList = [] → Refuses s (.run fun_ woken)
  | join {s i} : s.owner = .joining i → s.threadList[i]? = some .unstarted → Refuses s .join

variable {s s' : ThreadPool Task}

theorem runInThread_moves {i : Nat} (ha : s.Allowed (.runInThread i)) :
    ∃ out s', s.runInThread i = ⟨out, .ok s'⟩ ∧ s.Moves (.runInThread i) out s' := by
  rcases ha with ⟨thread, hi, hready⟩
  unfold runInThread
  cases thread with
  | unstarted | waiting | exited => simp [PoolThread.isReady] at hready
  | looping =>
      rw [hi]
      cases hrun : s.brunning with
      | true => exact ⟨_, _, rfl, .loop hi hrun⟩
      | false => exact ⟨_, _, rfl, .exit hi hrun⟩
  | locking =>
      simp only [hi, getTask]
      cases hlist : s.taskList with
      | nil =>
          cases hrun : s.brunning with
          | true => exact ⟨_, _, rfl, .wait hi hlist hrun⟩
          | false => exact ⟨_, _, rfl, .noTask hi hlist hrun⟩
      | cons t rest => exact ⟨_, _, rfl, .take hi hlist⟩
  | holding t =>
      rw [hi]
      cases t with
      | none => exact ⟨_, _, rfl, .sleepUsec hi⟩
      | some t => exact ⟨_, _, rfl, .execute hi⟩
  | inTask =>
      rw [hi]
      exact ⟨_, _, rfl, .executed hi⟩

/-- A step that is allowed does what `Moves` says, or an `assert` fails. -/
theorem step_moves {a : PoolStep Task} (ha : s.Allowed a) :
    (∃ out s', s.step a = ⟨out, .ok s'⟩ ∧ s.Moves a out s') ∨
      s.step a = Traced.fail .assertion ∧ s.Refuses a := by
  cases a with
  | start threadNum =>
      by_cases hlist : s.threadList = []
      · refine .inl ⟨_, _, ?_, .start ha hlist⟩
        rw [step, start, Traced.require_true (List.isEmpty_iff.mpr hlist)]
        rfl
      · refine .inr ⟨?_, .start hlist⟩
        rw [step, start, Traced.require_false (mt List.isEmpty_iff.mp hlist)]
        rfl
  | create created =>
      rcases ha with ⟨left, howner⟩
      simp only [step, create, howner]
      cases left with
      | zero => exact .inl ⟨_, _, rfl, .started howner⟩
      | succ left => exact .inl ⟨_, _, rfl, .create created howner⟩
  | stop => exact .inl ⟨_, _, rfl, .stop ha⟩
  | join =>
      rcases ha with ⟨i, howner, hdone⟩
      simp only [step, join, howner]
      cases hi : s.threadList[i]? with
      | none => exact .inl ⟨_, _, rfl, .joined howner hi⟩
      | some thread =>
          rcases hdone thread hi with rfl | rfl
          · exact .inr ⟨rfl, .join howner hi⟩
          · exact .inl ⟨_, _, rfl, .join howner hi⟩
  | run fun_ woken =>
      by_cases hlist : s.threadList = []
      · refine .inr ⟨?_, .run hlist⟩
        rw [step, run, Traced.require_false (by simp [hlist])]
        rfl
      · refine .inl ⟨_, _, ?_, .run hlist ?_⟩
        · rw [step, run, Traced.require_true (by simpa using hlist)]
          rfl
        · intro hmem
          rcases ha ⟨_, hmem, rfl⟩ with ⟨i, hwoken, thread', hi, hwaiting⟩
          exact ⟨i, hwoken, by rwa [PoolThread.isWaiting_iff.mp hwaiting] at hi⟩
  | wake i =>
      rcases ha with ⟨thread, hi, hwaiting⟩
      rw [PoolThread.isWaiting_iff.mp hwaiting] at hi
      exact .inl ⟨_, _, rfl, .wake hi⟩
  | runInThread i => exact .inl (runInThread_moves ha)

theorem moves_of_result {a : PoolStep Task} (ha : s.Allowed a) (hok : (s.step a).result = .ok s') :
    s.Moves a (s.step a).out s' := by
  rcases step_moves ha with ⟨out, s'', hstep, hmoves⟩ | ⟨hstep, -⟩
  · rw [hstep] at hok ⊢
    rcases Except.ok.inj hok
    exact hmoves
  · rw [hstep] at hok
    cases hok

/-! ## Signals -/

section Notify

/-- The threads of a list after a signal. -/
def wakeAll (woken : Nat → Bool) (threads : List (PoolThread Task)) : List (PoolThread Task) :=
  threads.mapIdx fun i thread => if woken i then thread.wake else thread

variable {woken : Nat → Bool} {threads : List (PoolThread Task)}

theorem wakeAll_cons (woken : Nat → Bool) (thread : PoolThread Task) (threads : List (PoolThread Task)) :
    wakeAll woken (thread :: threads) =
      (if woken 0 then thread.wake else thread) :: wakeAll (fun i => woken (i + 1)) threads :=
  List.mapIdx_cons

/-- A signal moves threads from the ones that are asleep to the ones that look at `taskList_`. -/
theorem countP_wakeAll (woken : Nat → Bool) (threads : List (PoolThread Task)) :
    (wakeAll woken threads).countP PoolThread.isLocking +
        (wakeAll woken threads).countP PoolThread.isWaiting =
      threads.countP PoolThread.isLocking + threads.countP PoolThread.isWaiting := by
  induction threads generalizing woken with
  | nil => rfl
  | cons thread threads ih =>
      have hrest := ih fun i => woken (i + 1)
      rw [wakeAll_cons]
      simp only [List.countP_cons]
      cases woken 0 <;> cases thread <;>
        simp [PoolThread.wake, PoolThread.isLocking, PoolThread.isWaiting] <;> omega

theorem countP_isWaiting_wakeAll_le (woken : Nat → Bool) (threads : List (PoolThread Task)) :
    (wakeAll woken threads).countP PoolThread.isWaiting ≤ threads.countP PoolThread.isWaiting := by
  induction threads generalizing woken with
  | nil => exact Nat.le_refl _
  | cons thread threads ih =>
      have hrest := ih fun i => woken (i + 1)
      rw [wakeAll_cons]
      simp only [List.countP_cons]
      cases woken 0 <;> cases thread <;> simp [PoolThread.wake, PoolThread.isWaiting] <;> omega

/-- A thread that is asleep and is signalled is not asleep any more. -/
theorem countP_isWaiting_wakeAll_lt {i : Nat} (hwoken : woken i) (hi : threads[i]? = some .waiting) :
    (wakeAll woken threads).countP PoolThread.isWaiting < threads.countP PoolThread.isWaiting := by
  induction threads generalizing woken i with
  | nil => simp at hi
  | cons thread threads ih =>
      rw [wakeAll_cons]
      simp only [List.countP_cons]
      cases i with
      | zero =>
          rcases Option.some.inj hi
          have hle := countP_isWaiting_wakeAll_le (fun i => woken (i + 1)) threads
          simp [hwoken, PoolThread.wake, PoolThread.isWaiting]
          omega
      | succ i =>
          have hlt := @ih (fun i => woken (i + 1)) i hwoken (by simpa using hi)
          cases woken 0 <;> cases thread <;> simp [PoolThread.wake, PoolThread.isWaiting] <;> omega

/-- A signal to all leaves nobody asleep. -/
theorem countP_isWaiting_wakeAll_all (threads : List (PoolThread Task)) :
    (wakeAll (fun _ => true) threads).countP PoolThread.isWaiting = 0 := by
  induction threads with
  | nil => rfl
  | cons thread threads ih =>
      rw [wakeAll_cons]
      simp only [List.countP_cons, ih]
      cases thread <;> rfl

theorem filterMap_held_wakeAll (woken : Nat → Bool) (threads : List (PoolThread Task)) :
    (wakeAll woken threads).filterMap PoolThread.held = threads.filterMap PoolThread.held := by
  induction threads generalizing woken with
  | nil => rfl
  | cons thread threads ih =>
      rw [wakeAll_cons, List.filterMap_cons, List.filterMap_cons, ih]
      cases woken 0 <;> simp

theorem exited_mem_wakeAll : .exited ∈ wakeAll woken threads ↔ .exited ∈ threads := by
  induction threads generalizing woken with
  | nil => exact Iff.rfl
  | cons thread threads ih =>
      rw [wakeAll_cons, List.mem_cons, List.mem_cons, ih]
      cases woken 0 <;> cases thread <;> simp [PoolThread.wake]

end Notify

/-! ## The invariant -/

/-- The invariant of the pool: where threads are asleep, every task in `taskList_` has a thread of its
own on its way. -/
structure Sound (s : ThreadPool Task) : Prop where
  asleep : s.brunning = false → s.sleepers = 0
  alive : s.brunning = true → .exited ∉ s.threadList
  signalled : s.sleepers = 0 ∨ s.taskList.length ≤ s.lockers
  starting : ∀ left, s.owner = .starting left → s.brunning = true
  joining : ∀ i, s.owner = .joining i → s.brunning = false
  stopped : s.owner = .outside → s.brunning = false → s.threadList = []
  joined : ∀ i, s.owner = .joining i → ∀ j < i, ∀ thread, s.threadList[j]? = some thread → thread = .exited

theorem sound_new : (new : ThreadPool Task).Sound :=
  ⟨fun _ => rfl, nofun, .inl rfl, nofun, nofun, fun _ _ => rfl, nofun⟩

section SetThread

variable {i : Nat} {thread : PoolThread Task}

theorem sleepers_setThread (hi : s.threadList[i]? = some thread) (thread' : PoolThread Task) :
    (s.setThread i thread').sleepers + (if thread.isWaiting then 1 else 0) =
      s.sleepers + if thread'.isWaiting then 1 else 0 :=
  countP_set_add hi _ _

theorem lockers_setThread (hi : s.threadList[i]? = some thread) (thread' : PoolThread Task) :
    (s.setThread i thread').lockers + (if thread.isLocking then 1 else 0) =
      s.lockers + if thread'.isLocking then 1 else 0 :=
  countP_set_add hi _ _

/-- A thread that goes on keeps the invariant if it goes to sleep only while the pool is running and ends
only when it is not. -/
theorem Sound.setThread (h : s.Sound) (hi : s.threadList[i]? = some thread) (hthread : thread ≠ .exited)
    {thread' : PoolThread Task} (hwaiting : s.brunning = false → thread' ≠ .waiting)
    (hexited : s.brunning = true → thread' ≠ .exited)
    (hsignalled : (s.setThread i thread').sleepers = 0 ∨
      s.taskList.length ≤ (s.setThread i thread').lockers) : (s.setThread i thread').Sound := by
  refine ⟨?_, ?_, hsignalled, h.starting, h.joining, ?_, ?_⟩
  · intro hrun
    have hset := sleepers_setThread hi thread'
    have hnot : thread'.isWaiting = false :=
      Bool.eq_false_iff.mpr (mt PoolThread.isWaiting_iff.mp (hwaiting hrun))
    rw [h.asleep hrun, hnot] at hset
    simp at hset
    exact hset.1
  · intro hrun hmem
    rcases List.mem_or_eq_of_mem_set hmem with hold | hnew
    · exact h.alive hrun hold
    · exact hexited hrun hnew.symm
  · intro howner hrun
    rw [h.stopped howner hrun] at hi
    simp at hi
  · intro k howner j hj other hother
    have hne : i ≠ j := by
      rintro rfl
      exact hthread (h.joined k howner i hj thread hi)
    exact h.joined k howner j hj other (by rwa [ThreadPool.setThread, List.getElem?_set_ne hne] at hother)

end SetThread

theorem lockers_add_sleepers_notify (s : ThreadPool Task) (taskList : List (Option Task))
    (woken : Nat → Bool) :
    ({ s with taskList := taskList }.notify woken).lockers +
      ({ s with taskList := taskList }.notify woken).sleepers = s.lockers + s.sleepers :=
  countP_wakeAll woken s.threadList

theorem sleepers_notify_le (s : ThreadPool Task) (taskList : List (Option Task)) (woken : Nat → Bool) :
    ({ s with taskList := taskList }.notify woken).sleepers ≤ s.sleepers :=
  countP_isWaiting_wakeAll_le woken s.threadList

/-- A signal keeps the invariant, with a task more if it reaches a thread that is asleep. -/
theorem Sound.notify (h : s.Sound) {woken : Nat → Bool} {taskList : List (Option Task)}
    (hsignalled : ({ s with taskList := taskList }.notify woken).sleepers = 0 ∨
      taskList.length ≤ ({ s with taskList := taskList }.notify woken).lockers) :
    ({ s with taskList := taskList }.notify woken).Sound := by
  refine ⟨?_, ?_, hsignalled, h.starting, h.joining, ?_, ?_⟩
  · intro hrun
    have hle := sleepers_notify_le s taskList woken
    have hzero := h.asleep hrun
    omega
  · intro hrun
    exact mt exited_mem_wakeAll.mp (h.alive hrun)
  · intro howner hrun
    have hnil := h.stopped howner hrun
    simp [ThreadPool.notify, hnil]
  · intro k howner j hj thread hthread
    simp only [ThreadPool.notify, List.getElem?_mapIdx, Option.map_eq_some_iff] at hthread
    rcases hthread with ⟨old, hold, rfl⟩
    rw [h.joined k howner j hj old hold]
    exact ite_self _

/-- Every step keeps the invariant. -/
theorem Sound.moves (h : s.Sound) {a : PoolStep Task} {out : List (PoolEvent Task)}
    (hmoves : s.Moves a out s') : s'.Sound := by
  cases hmoves with
  | start howner hlist =>
      refine ⟨nofun, ?_, .inl ?_, fun _ _ => rfl, nofun, nofun, nofun⟩
      · simp [hlist]
      · simp [sleepers, hlist]
  | create created howner =>
      have hrun := h.starting _ howner
      have hnew : (if created then PoolThread.looping else .unstarted : PoolThread Task).isWaiting = false ∧
          (if created then PoolThread.looping else .unstarted : PoolThread Task).isLocking = false := by
        cases created <;> exact ⟨rfl, rfl⟩
      refine ⟨?_, ?_, ?_, fun _ _ => hrun, nofun, nofun, nofun⟩
      · intro hnot
        simp [hrun] at hnot
      · intro _ hmem
        rcases List.mem_append.mp hmem with hold | hnew
        · exact h.alive hrun hold
        · cases created <;> simp at hnew
      · simpa [sleepers, lockers, hnew] using h.signalled
  | started howner =>
      refine ⟨h.asleep, h.alive, h.signalled, nofun, nofun, ?_, nofun⟩
      intro _ hnot
      simp [h.starting _ howner] at hnot
  | stop =>
      have hnone := countP_isWaiting_wakeAll_all s.threadList
      refine ⟨fun _ => hnone, nofun, .inl hnone, nofun, fun _ _ => rfl, nofun, ?_⟩
      intro i howner j hj
      cases howner
      simp at hj
  | @join i howner hi =>
      refine ⟨h.asleep, h.alive, h.signalled, nofun, fun _ _ => h.joining _ howner, nofun, ?_⟩
      intro k hk j hj thread hthread
      cases hk
      rcases Nat.lt_succ_iff_lt_or_eq.mp hj with hlt | rfl
      · exact h.joined i howner j hlt thread hthread
      · exact Option.some.inj (hthread.symm.trans hi)
  | joined =>
      exact ⟨fun _ => rfl, fun _ => List.not_mem_nil, .inl rfl, nofun, nofun, fun _ _ => rfl, nofun⟩
  | @run fun_ woken hne hsignals =>
      apply h.notify
      have hsum := lockers_add_sleepers_notify s (s.taskList ++ [fun_]) woken
      have hle := sleepers_notify_le s (s.taskList ++ [fun_]) woken
      by_cases hmem : .waiting ∈ s.threadList
      · -- the signal reaches a thread, which will look at the new task
        rcases hsignals hmem with ⟨i, hwoken, hi⟩
        have hlt : ({ s with taskList := s.taskList ++ [fun_] }.notify woken).sleepers < s.sleepers :=
          countP_isWaiting_wakeAll_lt hwoken hi
        have hsignalled := h.signalled
        rw [List.length_append, List.length_singleton]
        omega
      · have hzero : s.sleepers = 0 := by
          refine List.countP_eq_zero.mpr fun thread hthread => ?_
          rw [PoolThread.isWaiting_iff]
          rintro rfl
          exact hmem hthread
        omega
  | @wake i hi =>
      have hsum := lockers_add_sleepers_notify s s.taskList (· = i)
      have hle := sleepers_notify_le s s.taskList (· = i)
      have hsignalled := h.signalled
      have hwoken : ({ s with taskList := s.taskList }.notify (· = i)).Sound := h.notify (by omega)
      exact hwoken
  | loop hi hrun =>
      have hsleepers := sleepers_setThread hi .locking
      have hlockers := lockers_setThread hi .locking
      have hsignalled := h.signalled
      simp [PoolThread.isWaiting, PoolThread.isLocking] at hsleepers hlockers
      exact h.setThread hi nofun nofun nofun (by omega)
  | exit hi hrun =>
      have hsleepers := sleepers_setThread hi .exited
      have hzero := h.asleep hrun
      simp [PoolThread.isWaiting] at hsleepers
      refine h.setThread hi nofun nofun ?_ (.inl (by omega))
      simp [hrun]
  | wait hi hlist hrun =>
      refine h.setThread hi nofun ?_ nofun (.inr ?_)
      · simp [hrun]
      · simp [hlist]
  | noTask hi hlist hrun => exact h.setThread hi nofun nofun nofun (.inr (by simp [hlist]))
  | @take i t rest hi hlist =>
      have hsleepers := sleepers_setThread hi (.holding t)
      have hlockers := lockers_setThread hi (.holding t)
      have hsignalled := h.signalled
      simp [PoolThread.isWaiting, PoolThread.isLocking] at hsleepers hlockers
      simp only [hlist, List.length_cons] at hsignalled
      have hrest : ({ s with taskList := rest } : ThreadPool Task).Sound :=
        ⟨h.asleep, h.alive, by simp only [sleepers, lockers] at hsignalled ⊢; omega, h.starting, h.joining,
          h.stopped, h.joined⟩
      refine hrest.setThread hi nofun nofun nofun ?_
      have hsame : ({ s with taskList := rest }.setThread i (.holding t)).sleepers =
          (s.setThread i (.holding t)).sleepers := rfl
      have hsame' : ({ s with taskList := rest }.setThread i (.holding t)).lockers =
          (s.setThread i (.holding t)).lockers := rfl
      rw [hsame, hsame']
      change _ ∨ rest.length ≤ _
      omega
  | execute hi | sleepUsec hi | executed hi =>
      refine h.setThread hi nofun nofun nofun ?_
      have hsignalled := h.signalled
      first
        | have hsleepers := sleepers_setThread hi .inTask
          have hlockers := lockers_setThread hi .inTask
          simp [PoolThread.isWaiting, PoolThread.isLocking] at hsleepers hlockers
          omega
        | have hsleepers := sleepers_setThread hi .looping
          have hlockers := lockers_setThread hi .looping
          simp [PoolThread.isWaiting, PoolThread.isLocking] at hsleepers hlockers
          omega

theorem sound_invariant : (poolMachine Task).Invariant Sound :=
  fun _ _ _ h ha hok => h.moves (moves_of_result ha hok)

/-! ## Where the tasks are -/

/-- `taskList_` is a queue. -/
theorem taskList_moves {a : PoolStep Task} {out : List (PoolEvent Task)} (hmoves : s.Moves a out s') :
    s.taskList ++ out.filterMap PoolEvent.pushed? = out.filterMap PoolEvent.taken? ++ s'.taskList := by
  cases hmoves with
  | take hi hlist => simp [hlist, setThread, List.filterMap_cons]
  | _ => simp [setThread, ThreadPool.notify, stop, List.filterMap_cons]

theorem held_setThread {i : Nat} {thread : PoolThread Task} (hi : s.threadList[i]? = some thread)
    (thread' : PoolThread Task) :
    (thread.held.toList ++ (s.setThread i thread').held).Perm (thread'.held.toList ++ s.held) :=
  filterMap_set_perm hi _ _

/-- A thread that has no task before and after a step. -/
theorem held_setThread_of_none {i : Nat} {thread thread' : PoolThread Task}
    (hi : s.threadList[i]? = some thread) (hheld : thread.held = none) (hheld' : thread'.held = none) :
    (s.setThread i thread').held.Perm s.held := by
  simpa [hheld, hheld'] using held_setThread hi thread'

theorem held_notify (s : ThreadPool Task) (woken : Nat → Bool) : (s.notify woken).held = s.held :=
  filterMap_held_wakeAll woken s.threadList

/-- The tasks that are still to be executed are those that were, with the one that is pushed and without
the one that is called. -/
theorem pending_moves {a : PoolStep Task} {out : List (PoolEvent Task)} (h : s.Sound)
    (hmoves : s.Moves a out s') :
    (s.pending ++ out.filterMap PoolEvent.given?).Perm
      (out.filterMap PoolEvent.executed? ++ s'.pending) := by
  unfold pending
  cases hmoves with
  | start | started | join => simp [held]
  | create created => cases created <;> simp [held, List.filterMap_cons, PoolThread.held]
  | stop =>
      rw [stop, held_notify]
      simp [ThreadPool.notify, held]
  | @joined i howner hi =>
      -- every thread has come to its end
      have hnone : s.held = [] := by
        refine List.filterMap_eq_nil_iff.mpr fun thread hmem => ?_
        rcases List.getElem?_of_mem hmem with ⟨j, hj⟩
        have hlt := (List.getElem?_eq_some_iff.mp hj).1
        have hend := List.getElem?_eq_none_iff.mp hi
        rw [h.joined i howner j (by omega) thread hj]
        rfl
      rw [hnone]
      simp [held]
  | run =>
      rw [held_notify]
      simp [ThreadPool.notify, held, List.filterMap_cons]
  | wake =>
      rw [held_notify]
      simp [ThreadPool.notify, held]
  | @take i t rest hi hlist =>
      have hheld : ({ s with taskList := rest }.setThread i (.holding t)).held.Perm (t.toList ++ s.held) :=
        held_setThread hi (.holding t)
      have htasks : s.taskList.filterMap id = t.toList ++ rest.filterMap id := by
        rw [hlist]
        cases t <;> rfl
      rw [htasks, ← List.append_assoc]
      simpa [List.filterMap_cons] using
        (List.perm_append_comm.trans hheld.symm).append_right (rest.filterMap id)
  | @execute i t hi =>
      have hheld : (t :: (s.setThread i .inTask).held).Perm s.held := held_setThread hi .inTask
      simpa [List.filterMap_cons] using (hheld.append_right (s.taskList.filterMap id)).symm
  | loop hi | exit hi | wait hi | noTask hi | sleepUsec hi | executed hi =>
      simpa using (held_setThread_of_none hi rfl rfl).symm.append_right (s.taskList.filterMap id)

/-! ## How long the threads can go on -/

theorem work_setThread {i : Nat} {thread : PoolThread Task} (hi : s.threadList[i]? = some thread)
    (thread' : PoolThread Task) :
    (s.setThread i thread').work + thread.rank s.brunning = s.work + thread'.rank s.brunning := by
  rw [work, work, brunning_setThread, taskList_setThread, Nat.add_assoc, Nat.add_assoc]
  exact congrArg _ (sum_map_set hi (PoolThread.rank s.brunning) thread')

/-- Every step of a thread of the pool costs, a task that it takes included. -/
theorem work_moves {i : Nat} {out : List (PoolEvent Task)} (hmoves : s.Moves (.runInThread i) out s') :
    1 + s'.work ≤ s.work ∧ s'.brunning = s.brunning := by
  refine ⟨?_, by cases hmoves <;> rfl⟩
  cases hmoves with
  | loop hi hrun =>
      have hset := work_setThread hi .locking
      simp only [PoolThread.rank, hrun, if_true] at hset
      omega
  | exit hi hrun =>
      have hset := work_setThread hi .exited
      simp [PoolThread.rank, hrun] at hset
      omega
  | wait hi _ hrun =>
      have hset := work_setThread hi .waiting
      simp only [PoolThread.rank, hrun, if_true] at hset
      omega
  | noTask hi _ hrun =>
      have hset := work_setThread hi (.holding none)
      simp [PoolThread.rank, hrun] at hset
      omega
  | @take _ t rest hi hlist =>
      have hset : ({ s with taskList := rest }.setThread i (.holding t)).work + _ = _ :=
        work_setThread (s := { s with taskList := rest }) hi (.holding t)
      cases hrun : s.brunning <;> cases t <;> simp [PoolThread.rank, work, hrun, hlist] at hset ⊢ <;> omega
  | execute hi =>
      have hset := work_setThread hi .inTask
      cases hrun : s.brunning <;> simp [PoolThread.rank, hrun] at hset <;> omega
  | sleepUsec hi | executed hi =>
      have hset := work_setThread hi .looping
      cases hrun : s.brunning <;> simp [PoolThread.rank, hrun] at hset <;> omega

/-- A thread that goes on exists. -/
theorem started_moves {i : Nat} {out : List (PoolEvent Task)} (hmoves : s.Moves (.runInThread i) out s') :
    ∃ thread ∈ s'.threadList, thread ≠ .unstarted := by
  have hmem : ∀ {thread : PoolThread Task} (thread' : PoolThread Task), s.threadList[i]? = some thread →
      thread' ∈ s.threadList.set i thread' := fun thread' hi =>
    List.mem_set (List.getElem?_eq_some_iff.mp hi).1 thread'
  cases hmoves with
  | loop hi | exit hi | wait hi | noTask hi | take hi | execute hi | sleepUsec hi | executed hi =>
      exact ⟨_, hmem _ hi, nofun⟩

theorem given_moves {i : Nat} {out : List (PoolEvent Task)} (hmoves : s.Moves (.runInThread i) out s') :
    ∀ o ∈ out, o.given? = none := by
  cases hmoves <;> simp

/-- Where no thread can go on, the pool is running and one of its threads exists, nothing is left to do. -/
theorem Sound.pending_eq_nil (h : s.Sound) (hrun : s.brunning = true)
    (hstarted : ∃ thread ∈ s.threadList, thread ≠ .unstarted)
    (hquiet : ∀ thread ∈ s.threadList, thread.isReady = false) : s.pending = [] := by
  have hplace : ∀ thread ∈ s.threadList, thread = .unstarted ∨ thread = .waiting := by
    intro thread hmem
    have hready := hquiet thread hmem
    cases thread with
    | unstarted => exact .inl rfl
    | waiting => exact .inr rfl
    | exited => exact absurd hmem (h.alive hrun)
    | _ => simp [PoolThread.isReady] at hready
  have hlockers : s.lockers = 0 := by
    refine List.countP_eq_zero.mpr fun thread hmem => ?_
    rcases hplace thread hmem with rfl | rfl <;> simp [PoolThread.isLocking]
  have hsleepers : s.sleepers ≠ 0 := by
    rcases hstarted with ⟨thread, hmem, hne⟩
    refine Nat.ne_of_gt (List.countP_pos_iff.mpr ⟨thread, hmem, ?_⟩)
    exact PoolThread.isWaiting_iff.mpr ((hplace thread hmem).resolve_left hne)
  have hlist : s.taskList = [] := by
    have hle := h.signalled.resolve_left hsleepers
    rw [hlockers] at hle
    exact List.length_eq_zero_iff.mp (Nat.le_zero.mp hle)
  have hheld : s.held = [] := by
    refine List.filterMap_eq_nil_iff.mpr fun thread hmem => ?_
    rcases hplace thread hmem with rfl | rfl <;> rfl
  rw [pending, hheld, hlist]
  rfl

/-- A pool that is running and has a thread that exists. -/
def Running (s : ThreadPool Task) : Prop :=
  s.brunning = true ∧ ∃ thread ∈ s.threadList, thread ≠ .unstarted

end ThreadPool

/-- The threads of the pool by themselves. -/
def poolThreads (Task : Type) : Machine (ThreadPool Task) (PoolStep Task) (PoolEvent Task) ObjectFault :=
  (poolMachine Task).restrict fun _ a => ∃ i, a = .runInThread i

namespace ThreadPool

variable {s s' : ThreadPool Task}

theorem moves_of_poolThreads {a : PoolStep Task} (ha : (poolThreads Task).Allowed s a) :
    ∃ i out s', a = .runInThread i ∧ s.step a = ⟨out, .ok s'⟩ ∧ s.Moves a out s' := by
  rcases ha with ⟨ha, i, rfl⟩
  rcases runInThread_moves ha with ⟨out, s', hstep, hmoves⟩
  exact ⟨i, out, s', rfl, hstep, hmoves⟩

theorem poolThreads_invariant : (poolThreads Task).Invariant fun s => s.Sound ∧ s.Running := by
  rintro s a s' ⟨h, hrun, hstarted⟩ ha hok
  rcases moves_of_poolThreads ha with ⟨i, out, s'', rfl, hstep, hmoves⟩
  change (s.step (.runInThread i)).result = .ok s' at hok
  rw [hstep] at hok
  rcases Except.ok.inj hok
  exact ⟨h.moves hmoves, (work_moves hmoves).2.trans hrun, started_moves hmoves⟩

/-- The threads add nothing to what is to be executed. -/
theorem pending_poolThreads (h : s.Sound) (hrunning : s.Running) {inputs : List (PoolStep Task)}
    {out : List (PoolEvent Task)} (hruns : (poolThreads Task).Runs s inputs out s') :
    s.pending.Perm (out.filterMap PoolEvent.executed? ++ s'.pending) := by
  rcases hruns with ⟨hlegal, hrun⟩
  have hperm := poolThreads_invariant.perm (P := fun s : ThreadPool Task => s.Sound ∧ s.Running)
    (fun s a s' h ha hok => pending_moves h.1 (moves_of_result ha.1 hok))
    ⟨h, hrunning⟩ hlegal (congrArg Traced.result hrun)
  have hnone := poolThreads_invariant.forall_out (Q := fun o => o.given? = none)
    (fun s a _ ha => by
      rcases moves_of_poolThreads ha with ⟨i, out, s', rfl, hstep, hmoves⟩
      change ∀ o ∈ (s.step (.runInThread i)).out, _
      rw [hstep]
      exact given_moves hmoves)
    ⟨h, hrunning⟩ hlegal
  rw [List.filterMap_eq_nil_iff.mpr hnone, List.append_nil, hrun] at hperm
  exact hperm

theorem poolThreads_costs :
    (poolThreads Task).Costs (fun s => s.Sound ∧ s.Running) (fun _ => true) work := by
  intro s a s' _ ha hok
  rcases moves_of_poolThreads ha with ⟨i, out, s'', rfl, hstep, hmoves⟩
  change (s.step (.runInThread i)).result = .ok s' at hok
  rw [hstep] at hok
  rcases Except.ok.inj hok
  exact (work_moves hmoves).1

theorem poolThreads_succeeds : (poolThreads Task).Succeeds fun s => s.Sound ∧ s.Running := by
  intro s a _ ha
  rcases moves_of_poolThreads ha with ⟨i, out, s', rfl, hstep, -⟩
  exact ⟨s', congrArg Traced.result hstep⟩

end ThreadPool

/-- The tasks of a pool, in every run: they are taken in the order of the calls of `run`, and those that
have been given to it are those that have been executed and those that are still to be. A run ends
early only at an `assert`. -/
theorem poolTasks {steps : List (PoolStep Task)} (hlegal : (poolMachine Task).Legal .new steps) :
    (∀ s, ((poolMachine Task).run .new steps).result = .ok s →
      ((poolMachine Task).run .new steps).out.filterMap PoolEvent.pushed? =
        ((poolMachine Task).run .new steps).out.filterMap PoolEvent.taken? ++ s.taskList ∧
      (((poolMachine Task).run .new steps).out.filterMap PoolEvent.given?).Perm
        (((poolMachine Task).run .new steps).out.filterMap PoolEvent.executed? ++ s.pending)) ∧
    ∀ e, ((poolMachine Task).run .new steps).result = .error e →
      ∃ before a s, before ++ [a] <+: steps ∧ ((poolMachine Task).run .new before).result = .ok s ∧
        s.Refuses a := by
  refine ⟨?_, ?_⟩
  · intro s hs
    refine ⟨?_, ?_⟩
    · exact ThreadPool.sound_invariant.fifo
        (fun s a s' _ ha hok => ThreadPool.taskList_moves (ThreadPool.moves_of_result ha hok))
        ThreadPool.sound_new hlegal hs
    · exact ThreadPool.sound_invariant.perm
        (fun s a s' h ha hok => ThreadPool.pending_moves h (ThreadPool.moves_of_result ha hok))
        ThreadPool.sound_new hlegal hs
  · intro e herr
    rcases Machine.result_error herr with ⟨before, a, after, s, rfl, hs, hstep, -⟩
    have hpre : before ++ [a] <+: before ++ a :: after := ⟨after, by simp⟩
    refine ⟨before, a, s, hpre, hs, ?_⟩
    rcases ThreadPool.step_moves (Machine.allowed_of_isPrefix hlegal hpre hs).2 with
      ⟨out, s', hok, -⟩ | ⟨-, hrefuses⟩
    · change (s.step a).result = _ at hstep
      rw [hok] at hstep
      cases hstep
    · exact hrefuses

/-- While nobody is asleep, nobody need be woken up. -/
theorem ThreadPool.allowed_run_of_awake {s : ThreadPool Task} (h : s.sleepers = 0)
    (fun_ : Option Task) {woken : Nat → Bool} : s.Allowed (.run fun_ woken) := by
  rintro ⟨thread, hmem, hwaiting⟩
  exact absurd hwaiting (List.countP_eq_zero.mp h thread hmem)

/-- Two threads and three tasks: one thread is asleep when the first task comes, the other one is the
first to execute a task, and is back for the next one. -/
def threeTasks : List (PoolStep Nat) :=
  [.start 2, .create true, .create true, .create true, .runInThread 0, .runInThread 0,
    .run (some 7) (· = 0), .run (some 8) (fun _ => false), .runInThread 0, .runInThread 1, .runInThread 1,
    .run (some 9) (fun _ => false), .runInThread 1, .runInThread 0, .runInThread 1, .runInThread 1]

/-- The pool after these steps: one thread is in its task, the other one does not have the mutex yet. -/
def threeTasksPool : ThreadPool Nat where
  threadList := [.inTask, .locking]
  brunning := true
  taskList := [some 9]
  owner := .outside

theorem threeTasks_runs : (poolMachine Nat).Runs .new threeTasks
    [.pushed (some 7), .pushed (some 8), .taken (some 7), .taken (some 8), .pushed (some 9), .executed 8,
      .executed 7] threeTasksPool := by
  refine ⟨?_, rfl⟩
  refine Machine.legal_cons rfl rfl ?_
  refine Machine.legal_cons ⟨2, rfl⟩ rfl ?_
  refine Machine.legal_cons ⟨1, rfl⟩ rfl ?_
  refine Machine.legal_cons ⟨0, rfl⟩ rfl ?_
  refine Machine.legal_cons ⟨.looping, rfl, rfl⟩ rfl ?_
  refine Machine.legal_cons ⟨.locking, rfl, rfl⟩ rfl ?_
  refine Machine.legal_cons (fun _ => ⟨0, rfl, .waiting, rfl, rfl⟩) rfl ?_
  refine Machine.legal_cons (ThreadPool.allowed_run_of_awake rfl (some 8)) rfl ?_
  refine Machine.legal_cons ⟨.locking, rfl, rfl⟩ rfl ?_
  refine Machine.legal_cons ⟨.looping, rfl, rfl⟩ rfl ?_
  refine Machine.legal_cons ⟨.locking, rfl, rfl⟩ rfl ?_
  refine Machine.legal_cons (ThreadPool.allowed_run_of_awake rfl (some 9)) rfl ?_
  refine Machine.legal_cons ⟨.holding (some 8), rfl, rfl⟩ rfl ?_
  refine Machine.legal_cons ⟨.holding (some 7), rfl, rfl⟩ rfl ?_
  refine Machine.legal_cons ⟨.inTask, rfl, rfl⟩ rfl ?_
  exact Machine.legal_cons ⟨.looping, rfl, rfl⟩ rfl trivial

theorem poolTasks_threeTasks :
    [some 7, some 8, some 9] = [some 7, some 8] ++ threeTasksPool.taskList ∧
      [7, 8, 9].Perm ([8, 7] ++ threeTasksPool.pending) := by
  have htasks := (poolTasks threeTasks_runs.1).1 threeTasksPool rfl
  rwa [threeTasks_runs.2] at htasks

/-- No wake-up is lost: whatever order the threads of a running pool go on in, they are all asleep after
so many steps, and then they have executed all the tasks that were to be executed. -/
theorem poolDrains {steps : List (PoolStep Task)} (hlegal : (poolMachine Task).Legal .new steps)
    {s : ThreadPool Task} (hs : ((poolMachine Task).run .new steps).result = .ok s) (hrunning : s.Running) :
    (∀ inputs out s', (poolThreads Task).Runs s inputs out s' → inputs.length ≤ s.work ∧
      ((poolThreads Task).Quiet s' →
        s'.pending = [] ∧ s.pending.Perm (out.filterMap PoolEvent.executed?))) ∧
    ∃ inputs out s', (poolThreads Task).Runs s inputs out s' ∧ (poolThreads Task).Quiet s' := by
  have hsound := ThreadPool.sound_invariant.run ThreadPool.sound_new hlegal hs
  refine ⟨?_, ?_⟩
  · intro inputs out s' ⟨hwork, hrun⟩
    have hok : ((poolThreads Task).run s inputs).result = .ok s' := congrArg Traced.result hrun
    have hlength := ThreadPool.poolThreads_invariant.countP_le ThreadPool.poolThreads_costs
      ⟨hsound, hrunning⟩ hwork hok
    refine ⟨by simp at hlength; omega, ?_⟩
    intro hquiet
    rcases ThreadPool.poolThreads_invariant.run ⟨hsound, hrunning⟩ hwork hok with ⟨hsound', hrun', hstarted⟩
    have hnil : s'.pending = [] := by
      refine hsound'.pending_eq_nil hrun' hstarted fun thread hmem => ?_
      rcases List.getElem?_of_mem hmem with ⟨i, hi⟩
      exact Bool.eq_false_iff.mpr fun hready => hquiet (.runInThread i) ⟨⟨thread, hi, hready⟩, i, rfl⟩
    refine ⟨hnil, ?_⟩
    simpa [hnil] using ThreadPool.pending_poolThreads hsound hrunning ⟨hwork, hrun⟩
  · rcases ThreadPool.poolThreads_invariant.exists_quiet ThreadPool.poolThreads_costs
      ThreadPool.poolThreads_succeeds ⟨hsound, hrunning⟩ with ⟨inputs, s', hwork, hrun, hquiet⟩
    exact ⟨inputs, _, s', ⟨hwork, by rw [← hrun]⟩, hquiet⟩

theorem poolDrains_threeTasks :
    (∀ inputs out s', (poolThreads Nat).Runs threeTasksPool inputs out s' → inputs.length ≤ 8 ∧
      ((poolThreads Nat).Quiet s' → s'.pending = [] ∧ [9].Perm (out.filterMap PoolEvent.executed?))) ∧
    ∃ inputs out s', (poolThreads Nat).Runs threeTasksPool inputs out s' ∧ (poolThreads Nat).Quiet s' :=
  poolDrains threeTasks_runs.1 (congrArg Traced.result threeTasks_runs.2)
    ⟨rfl, .inTask, List.mem_cons_self, nofun⟩

end WebsocketCpp
