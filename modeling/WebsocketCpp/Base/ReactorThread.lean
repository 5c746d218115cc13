import WebsocketCpp.Base.Reactor

/-!
# A reactor on a thread of its own

`ReactorThread` (`base/ReactorThread.cpp`) with `Reactor::quit` and the loop `while (!bquit_)`
(`Reactor.cpp:82-125`). The reactor is a local variable of `threadProc`: it exists from there on until
`loop()` has returned, and `loop_` keeps pointing to it afterwards. A section under `mutex_` is one
step, as is each of the two accesses of `quit`.
-/

namespace WebsocketCpp

/-- Where the thread is in `threadProc` (`ReactorThread.cpp:52-65`). -/
inductive LoopThread where
  | unstarted
  /-- `pthread_create` has failed. -/
  | failed
  /-- Before `Reactor loop`. -/
  | constructing
  /-- Before the section under the mutex. -/
  | publishing
  /-- Before `while (!bquit_)`. -/
  | testing
  /-- In the body of the loop. -/
  | looping
  /-- `loop()` has returned. -/
  | finished
  deriving DecidableEq, Repr

/-- Where the thread is that owns the `ReactorThread`. -/
inductive LoopOwner where
  | outside
  /-- In `startLoop` without the mutex, awake. -/
  | locking
  /-- In `wait_.wait()`. -/
  | waiting
  /-- `startLoop` has returned. -/
  | started
  /-- In `quit`, before `eventfdWrite`. -/
  | quitting
  /-- Before `thread_.join()`. -/
  | joining
  | destroyed
  deriving DecidableEq, Repr

inductive LoopThreadStep (Task : Type) where
  /-- `thread_.start()`, with what `pthread_create` answers. -/
  | startLoop (created : Bool)
  /-- The owner has the mutex in `startLoop`. -/
  | lock
  /-- `wait` returns without a signal. -/
  | wake
  /-- The next step of the thread outside of the body of the loop. -/
  | threadProc
  /-- A step of the body of the loop, or of a call of `runInLoop` or `queueInLoop`. -/
  | reactor (a : ReactorStep Task)
  /-- `~ReactorThread`, up to `bquit_ = true`. -/
  | destruct
  /-- `eventfdWrite` in `quit`. -/
  | quit
  | join

/-- The members of `ReactorThread`, the reactor that `threadProc` constructs, and where the two threads
are. `loop` is whether `loop_` has been set. -/
structure ReactorThread (Task : Type) where
  reactor : Reactor Task
  bquit : Bool
  loop : Bool
  thread : LoopThread
  owner : LoopOwner

/-- Before or in `poll`. -/
def LoopPhase.isPolling {Task : Type} : LoopPhase Task → Bool
  | .polling => true
  | _ => false

namespace LoopThread

/-- The reactor exists. -/
def alive : LoopThread → Bool
  | .publishing | .testing | .looping => true
  | _ => false

end LoopThread

namespace LoopOwner

/-- A signal reaches the owner. -/
def notify : LoopOwner → LoopOwner
  | .waiting => .locking
  | owner => owner

end LoopOwner

namespace ReactorThread

variable {Task : Type}

/-- `ReactorThread::ReactorThread`, for a thread with this id. -/
def new (threadId : Nat) : ReactorThread Task where
  reactor := .new threadId
  bquit := false
  loop := false
  thread := .unstarted
  owner := .outside

/-- The thread that takes a step of the reactor. -/
def caller (s : ReactorThread Task) : ReactorStep Task → Nat
  | .poll _ | .loop => s.reactor.threadId
  | .runInLoop tid _ | .queueInLoop tid _ | .proceed tid => tid

/-- The section under the mutex in `ReactorThread::startLoop` (`ReactorThread.cpp:38-42`), up to the next
`wait` or to its end. -/
def lock (s : ReactorThread Task) : ReactorThread Task :=
  { s with owner := if s.loop then .started else .waiting }

/-- `ReactorThread::threadProc` (`ReactorThread.cpp:54-62`) and the test of `bquit_`. -/
def threadProc (s : ReactorThread Task) : ReactorThread Task :=
  match s.thread with
  | .constructing => { s with reactor := .new s.reactor.threadId, bquit := false, thread := .publishing }
  | .publishing => { s with loop := true, thread := .testing, owner := s.owner.notify }
  | .testing => { s with thread := if s.bquit then .finished else .looping }
  | _ => s

/-- A step of the reactor. When the loop gets to the end of its body it tests `bquit_` again. -/
def reactorStep (s : ReactorThread Task) (a : ReactorStep Task) : Reacted Task (ReactorThread Task) := do
  Traced.require (s.thread.alive = true) .useAfterFree
  let reactor ← s.reactor.step a
  let ended := !s.reactor.phase.isPolling && reactor.phase.isPolling
  pure { s with reactor := reactor, thread := if ended then .testing else s.thread }

/-- `ReactorThread::~ReactorThread` (`ReactorThread.cpp:17-19`) with `Reactor::quit` up to `bquit_ = true`. -/
def destruct (s : ReactorThread Task) : Reacted Task (ReactorThread Task) :=
  if s.loop then do
    Traced.require (s.thread.alive = true) .useAfterFree
    pure { s with bquit := true, owner := .quitting }
  else pure { s with owner := .destroyed }

/-- The rest of `Reactor::quit` (`Reactor.cpp:124`). -/
def quit (s : ReactorThread Task) : Reacted Task (ReactorThread Task) := do
  Traced.require (s.thread.alive = true) .useAfterFree
  pure { s with reactor := ← s.reactor.taskWakeup, owner := .joining }

def step (s : ReactorThread Task) : LoopThreadStep Task → Reacted Task (ReactorThread Task)
  | .startLoop created =>
    pure { s with thread := if created then .constructing else .failed, owner := .locking }
  | .lock => pure s.lock
  | .wake => pure { s with owner := .locking }
  | .threadProc => pure s.threadProc
  | .reactor a => s.reactorStep a
  | .destruct => s.destruct
  | .quit => s.quit
  | .join => pure { s with loop := false, owner := .destroyed }

/-- Which steps can be next. Other threads have the reactor from `startLoop`, and have left it when the
`ReactorThread` is destroyed. -/
def Allowed (s : ReactorThread Task) : LoopThreadStep Task → Prop
  | .startLoop _ => s.owner = .outside
  | .lock => s.owner = .locking
  | .wake => s.owner = .waiting
  | .threadProc => s.thread = .constructing ∨ s.thread = .publishing ∨ s.thread = .testing
  | .reactor a => s.reactor.Allowed a ∧
      if s.caller a = s.reactor.threadId then s.thread = .looping else s.owner = .started
  | .destruct => s.owner = .outside ∨
      s.owner = .started ∧ ∀ tid, tid ≠ s.reactor.threadId → s.reactor.calls tid = none
  | .quit => s.owner = .quitting
  | .join => s.owner = .joining ∧ s.thread = .finished

end ReactorThread

def reactorThreadMachine (Task : Type) :
    Machine (ReactorThread Task) (LoopThreadStep Task) (ReactorEvent Task) ObjectFault where
  step := ReactorThread.step
  Allowed := ReactorThread.Allowed

end WebsocketCpp
