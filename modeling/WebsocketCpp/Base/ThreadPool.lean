import WebsocketCpp.Fault
import WebsocketCpp.Misc.Run

/-!
# The thread pool

`ThreadPool` (`base/ThreadPool.cpp`) in the steps that its threads and its users interleave: a section
under `mutex_` is one step, as is each test of `brunning_` in `runInThread` and each pass of the loops of
`start` and `stop`. The `assert` of `run` is one step with the section that follows it, that of `start` with
the assignment of `brunning_`, and the `push_back` of a thread with its `pthread_create`. `start` and `stop`
are called by one thread that is not of the pool, `run` by any thread. An empty `std::function` is `none`.
A task returns: the `catch` blocks of `runInThread`, which end the process, are left out.
-/

namespace WebsocketCpp

/-- Where a thread is in `runInThread` (`ThreadPool.cpp:111-140`), with `getTask`. -/
inductive PoolThread (Task : Type) where
  /-- `pthread_create` has failed (`Thread.cpp:153-159`). -/
  | unstarted
  /-- Before `while (brunning_)`. -/
  | looping
  /-- Before it has `mutex_`, at the start of `getTask` or woken up in `wait`. -/
  | locking
  /-- In `notEmpty_.wait()`. -/
  | waiting
  /-- `getTask` has returned. -/
  | holding (t : Option Task)
  /-- In the task. -/
  | inTask
  | exited
  deriving DecidableEq, Repr

/-- Where the thread that calls `start` and `stop` is. -/
inductive PoolOwner where
  | outside
  /-- In `start`, with this many passes of the loop to go. -/
  | starting (left : Nat)
  /-- In `stop`, before the `join` of this thread. -/
  | joining (i : Nat)
  deriving DecidableEq, Repr

inductive PoolEvent (Task : Type) where
  /-- Onto `taskList_`. -/
  | pushed (fun_ : Option Task)
  /-- From the front of `taskList_`. -/
  | taken (t : Option Task)
  | executed (t : Task)
  deriving DecidableEq, Repr

inductive PoolStep (Task : Type) where
  /-- `start`, up to the loop. -/
  | start (threadNum : Nat)
  /-- A pass of the loop of `start`, with what `pthread_create` answers. -/
  | create (created : Bool)
  /-- `stop`, up to the end of the section under the mutex. -/
  | stop
  /-- A pass of the loop of `stop`, or what follows the loop. -/
  | join
  /-- `run`, with the threads that `pthread_cond_signal` wakes up. -/
  | run (fun_ : Option Task) (woken : Nat → Bool)
  /-- `wait` returns to a thread that has not been signalled. -/
  | wake (i : Nat)
  /-- The next step of a thread of the pool. -/
  | runInThread (i : Nat)

abbrev Pooled (Task : Type) := Traced (PoolEvent Task) ObjectFault

namespace PoolThread

variable {Task : Type}

/-- A signal reaches the thread. -/
def wake : PoolThread Task → PoolThread Task
  | .waiting => .locking
  | thread => thread

/-- The thread is asleep. -/
def isWaiting : PoolThread Task → Bool
  | .waiting => true
  | _ => false

/-- The thread is about to look at `taskList_`. -/
def isLocking : PoolThread Task → Bool
  | .locking => true
  | _ => false

/-- The thread can go on by itself. -/
def isReady : PoolThread Task → Bool
  | .unstarted | .waiting | .exited => false
  | _ => true

/-- The task that the thread has taken and not called yet. -/
def held : PoolThread Task → Option Task
  | .holding t => t
  | _ => none

end PoolThread

structure ThreadPool (Task : Type) where
  threadList : List (PoolThread Task)
  brunning : Bool
  taskList : List (Option Task)
  owner : PoolOwner

namespace ThreadPool

variable {Task : Type}

/-- `ThreadPool::ThreadPool`. -/
def new : ThreadPool Task where
  threadList := []
  brunning := false
  taskList := []
  owner := .outside

/-- `Condition::notify` and `notifyAll`, for the threads in `woken`. -/
def notify (s : ThreadPool Task) (woken : Nat → Bool) : ThreadPool Task :=
  { s with threadList := s.threadList.mapIdx fun i thread => if woken i then thread.wake else thread }

def setThread (s : ThreadPool Task) (i : Nat) (thread : PoolThread Task) : ThreadPool Task :=
  { s with threadList := s.threadList.set i thread }

@[simp] theorem taskList_setThread (s : ThreadPool Task) (i : Nat) (thread : PoolThread Task) :
    (s.setThread i thread).taskList = s.taskList := rfl

@[simp] theorem brunning_setThread (s : ThreadPool Task) (i : Nat) (thread : PoolThread Task) :
    (s.setThread i thread).brunning = s.brunning := rfl

@[simp] theorem taskList_notify (s : ThreadPool Task) (woken : Nat → Bool) :
    (s.notify woken).taskList = s.taskList := rfl

/-- `ThreadPool::start` (`ThreadPool.cpp:27-35`). -/
def start (s : ThreadPool Task) (threadNum : Nat) : Pooled Task (ThreadPool Task) := do
  Traced.require s.threadList.isEmpty .assertion
  pure { s with brunning := true, owner := .starting threadNum }

/-- The loop of `ThreadPool::start` (`ThreadPool.cpp:35-44`). -/
def create (s : ThreadPool Task) (created : Bool) : ThreadPool Task :=
  match s.owner with
  | .starting 0 => { s with owner := .outside }
  | .starting (left + 1) =>
    { s with
      threadList := s.threadList ++ [if created then .looping else .unstarted]
      owner := .starting left }
  | _ => s

/-- `ThreadPool::stop` (`ThreadPool.cpp:52-56`). -/
def stop (s : ThreadPool Task) : ThreadPool Task :=
  { s with brunning := false, owner := .joining 0 }.notify fun _ => true

/-- The rest of `ThreadPool::stop` (`ThreadPool.cpp:59-65`): `Thread::join` asserts that the thread has
been started, and `pthread_join` blocks until it has come to its end. -/
def join (s : ThreadPool Task) : Pooled Task (ThreadPool Task) :=
  match s.owner with
  | .joining i =>
    match s.threadList[i]? with
    | none => pure { s with threadList := [], owner := .outside }
    | some .unstarted => Traced.fail .assertion
    | some _ => pure { s with owner := .joining (i + 1) }
  | _ => pure s

/-- `ThreadPool::run` (`ThreadPool.cpp:73-80`). -/
def run (s : ThreadPool Task) (fun_ : Option Task) (woken : Nat → Bool) :
    Pooled Task (ThreadPool Task) := do
  Traced.require (s.threadList.isEmpty = false) .assertion
  Traced.emit (.pushed fun_)
  pure ({ s with taskList := s.taskList ++ [fun_] }.notify woken)

/-- `ThreadPool::getTask` (`ThreadPool.cpp:88-105`) by the thread `i`, once it has the mutex, up to the
next `wait` or to its end. -/
def getTask (s : ThreadPool Task) (i : Nat) : Pooled Task (ThreadPool Task) :=
  match s.taskList with
  | [] => pure (s.setThread i (if s.brunning then .waiting else .holding none))
  | t :: rest => do
    Traced.emit (.taken t)
    pure ({ s with taskList := rest }.setThread i (.holding t))

/-- `ThreadPool::runInThread` of the thread `i` (`ThreadPool.cpp:115-126`). -/
def runInThread (s : ThreadPool Task) (i : Nat) : Pooled Task (ThreadPool Task) :=
  match s.threadList[i]? with
  | some .looping => pure (s.setThread i (if s.brunning then .locking else .exited))
  | some .locking => s.getTask i
  | some (.holding (some t)) => do
    Traced.emit (.executed t)
    pure (s.setThread i .inTask)
  | some (.holding none) | some .inTask => pure (s.setThread i .looping)
  | _ => pure s

def step (s : ThreadPool Task) : PoolStep Task → Pooled Task (ThreadPool Task)
  | .start threadNum => s.start threadNum
  | .create created => pure (s.create created)
  | .stop => pure s.stop
  | .join => s.join
  | .run fun_ woken => s.run fun_ woken
  | .wake i => pure (s.notify (· = i))
  | .runInThread i => s.runInThread i

/-- Which steps can be next. `pthread_cond_signal` wakes up one thread at least if any is asleep, and
`pthread_join` returns when the thread has come to its end. -/
def Allowed (s : ThreadPool Task) : PoolStep Task → Prop
  | .start _ | .stop => s.owner = .outside
  | .create _ => ∃ left, s.owner = .starting left
  | .join => ∃ i, s.owner = .joining i ∧
      ∀ thread, s.threadList[i]? = some thread → thread = .unstarted ∨ thread = .exited
  | .run _ woken => (∃ thread ∈ s.threadList, thread.isWaiting) →
      ∃ i, woken i ∧ ∃ thread, s.threadList[i]? = some thread ∧ thread.isWaiting
  | .wake i => ∃ thread, s.threadList[i]? = some thread ∧ thread.isWaiting
  | .runInThread i => ∃ thread, s.threadList[i]? = some thread ∧ thread.isReady

end ThreadPool

def poolMachine (Task : Type) :
    Machine (ThreadPool Task) (PoolStep Task) (PoolEvent Task) ObjectFault where
  step := ThreadPool.step
  Allowed := ThreadPool.Allowed

end WebsocketCpp
