import Mathlib.Algebra.Group.Nat.Defs
import Mathlib.Logic.Function.Basic
import WebsocketCpp.Fault
import WebsocketCpp.Misc.Run

/-!
# The task queue of a reactor

`Reactor` (`base/Reactor.cpp`) as far as tasks are concerned, in the steps that the threads which use
it interleave: a section under the mutex is one step, as is each access to `btaskRunning_`, to
`functorList_.empty()` and to the eventfd. The loop thread is the one that constructed the reactor.
-/

namespace WebsocketCpp

/-- The largest value of an eventfd. -/
def eventfdMax : Nat := 2 ^ 64 - 2

/-- What `poll` can put into `activeList_`. Every descriptor has one handler. -/
inductive Active where
  | taskHandler
  | socket (fd : Nat)
  deriving DecidableEq, Repr

/-- Where `loop` is (`Reactor.cpp:82-113`, with `runningTask`, `184-213`). -/
inductive LoopPhase (Task : Type) where
  /-- Before and in `poll`. -/
  | polling
  /-- Between two handlers, with those still to be called. -/
  | dispatching (activeList : List Active)
  /-- In a handler. -/
  | handling (activeList : List Active)
  /-- Before `functorList_.empty()`. -/
  | checking
  /-- Before `btaskRunning_ = true`. -/
  | starting
  /-- Before the swap. -/
  | swapping
  /-- Between two tasks, with those still to be called. -/
  | executing (functor : List Task)
  /-- In a task. -/
  | inTask (functor : List Task)

/-- Where a call of `queueInLoop` is (`Reactor.cpp:151-170`), after the push. -/
inductive QueueCall where
  /-- Before `if (!isInLoopThread())`. -/
  | pushed
  /-- Before `if (btaskRunning_)`. -/
  | checkRunning
  /-- Before the second `eventfdWrite`. -/
  | wakeup
  deriving DecidableEq, Repr

inductive ReactorEvent (Task : Type) where
  /-- Onto `functorList_`. -/
  | pushed (func : Task)
  /-- By `runningTask`. -/
  | executed (func : Task)
  /-- By `runInLoop` itself. -/
  | called (func : Task)
  deriving DecidableEq, Repr

abbrev Reacted (Task : Type) := Traced (ReactorEvent Task) ObjectFault

/-- `eventfdRead` (`common.h:53-61`): the descriptor does not block, so that there is nothing to read
at 0. -/
def eventfdRead {Task : Type} (evfd : Nat) : Reacted Task Nat := do
  Traced.require (0 < evfd) .assertion
  pure 0

/-- `eventfdWrite` (`common.h:67-76`). -/
def eventfdWrite {Task : Type} (evfd : Nat) : Reacted Task Nat := do
  Traced.require (evfd < eventfdMax) .assertion
  pure (evfd + 1)

/-- The members of `Reactor` that tasks use, with the places of the threads: `calls` are those inside
`queueInLoop`. `taskWakeupFd` is the value of the eventfd. -/
structure Reactor (Task : Type) where
  threadId : Nat
  taskWakeupFd : Nat
  functorList : List Task
  btaskRunning : Bool
  phase : LoopPhase Task
  calls : Nat → Option QueueCall

inductive ReactorStep (Task : Type) where
  /-- `poll` returns. -/
  | poll (activeList : List Active)
  /-- The next step of `loop`. -/
  | loop
  | runInLoop (tid : Nat) (func : Task)
  | queueInLoop (tid : Nat) (func : Task)
  /-- The next step of a `queueInLoop`. -/
  | proceed (tid : Nat)

namespace Reactor

variable {Task : Type}

/-- `Reactor::Reactor` on the thread `threadId`, up to the first `poll`. -/
def new (threadId : Nat) : Reactor Task where
  threadId := threadId
  taskWakeupFd := 0
  functorList := []
  btaskRunning := false
  phase := .polling
  calls := fun _ => none

def isInLoopThread (s : Reactor Task) (tid : Nat) : Prop := s.threadId = tid

instance (s : Reactor Task) (tid : Nat) : Decidable (s.isInLoopThread tid) :=
  inferInstanceAs (Decidable (s.threadId = tid))

def setCall (s : Reactor Task) (tid : Nat) (call : Option QueueCall) : Reactor Task :=
  { s with calls := Function.update s.calls tid call }

@[simp] theorem calls_setCall_self (s : Reactor Task) (tid : Nat) (call : Option QueueCall) :
    (s.setCall tid call).calls tid = call := Function.update_self ..

theorem calls_setCall_of_ne (s : Reactor Task) {tid tid' : Nat} (h : tid' ≠ tid)
    (call : Option QueueCall) : (s.setCall tid call).calls tid' = s.calls tid' :=
  Function.update_of_ne h ..

/-- `Reactor::taskWakeupRead` (`Reactor.cpp:176-179`). -/
def taskWakeupRead (s : Reactor Task) : Reacted Task (Reactor Task) := do
  pure { s with taskWakeupFd := ← eventfdRead s.taskWakeupFd }

def taskWakeup (s : Reactor Task) : Reacted Task (Reactor Task) := do
  pure { s with taskWakeupFd := ← eventfdWrite s.taskWakeupFd }

/-- `Reactor::queueInLoop` up to the end of the section under the mutex (`Reactor.cpp:153-156`). -/
def queueInLoop (s : Reactor Task) (tid : Nat) (func : Task) : Reacted Task (Reactor Task) := do
  Traced.emit (.pushed func)
  pure ({ s with functorList := s.functorList ++ [func] }.setCall tid (some .pushed))

/-- The rest of `Reactor::queueInLoop` (`Reactor.cpp:158-168`). -/
def proceed (s : Reactor Task) (tid : Nat) : Reacted Task (Reactor Task) :=
  match s.calls tid with
  | none => pure s
  | some .pushed => do
    let s ← if ¬s.isInLoopThread tid then s.taskWakeup else pure s
    pure (s.setCall tid (some .checkRunning))
  | some .checkRunning => pure (s.setCall tid (if s.btaskRunning then some .wakeup else none))
  | some .wakeup => do
    pure ((← s.taskWakeup).setCall tid none)

/-- `Reactor::runInLoop` (`Reactor.cpp:132-144`). A task that is called at once does its work inside
of the handler or the task that has called `runInLoop`. -/
def runInLoop (s : Reactor Task) (tid : Nat) (func : Task) : Reacted Task (Reactor Task) :=
  if s.isInLoopThread tid then do
    Traced.emit (.called func)
    pure s
  else s.queueInLoop tid func

/-- `Reactor::loop` and `Reactor::runningTask`, while `bquit_` is not set. -/
def loop (s : Reactor Task) : Reacted Task (Reactor Task) :=
  match s.phase with
  | .polling => pure s
  | .dispatching [] => pure { s with phase := .checking }
  | .dispatching (.taskHandler :: rest) => do
    pure { ← s.taskWakeupRead with phase := .dispatching rest }
  | .dispatching (.socket _ :: rest) => pure { s with phase := .handling rest }
  | .handling rest => pure { s with phase := .dispatching rest }
  | .checking => pure { s with phase := if s.functorList.isEmpty then .polling else .starting }
  | .starting => pure { s with btaskRunning := true, phase := .swapping }
  | .swapping => pure { s with functorList := [], phase := .executing s.functorList }
  | .executing [] => pure { s with btaskRunning := false, phase := .polling }
  | .executing (func :: functor) => do
    Traced.emit (.executed func)
    pure { s with phase := .inTask functor }
  | .inTask functor => pure { s with phase := .executing functor }

def step (s : Reactor Task) : ReactorStep Task → Reacted Task (Reactor Task)
  | .poll activeList => pure { s with phase := .dispatching activeList }
  | .loop => s.loop
  | .runInLoop tid func => s.runInLoop tid func
  | .queueInLoop tid func => s.queueInLoop tid func
  | .proceed tid => s.proceed tid

/-- The thread can call the reactor: the loop thread from a handler or a task. -/
def CanCall (s : Reactor Task) (tid : Nat) : Prop :=
  s.calls tid = none ∧
    (s.isInLoopThread tid → (∃ rest, s.phase = .handling rest) ∨ ∃ rest, s.phase = .inTask rest)

/-- Which steps can be next. `poll` reports the eventfd only if it can be read, and no handler twice;
a handler or a task goes on when its call of `queueInLoop` has returned. -/
def Allowed (s : Reactor Task) : ReactorStep Task → Prop
  | .poll activeList =>
    s.phase = .polling ∧ activeList.Nodup ∧ (.taskHandler ∈ activeList → 0 < s.taskWakeupFd)
  | .loop => s.phase ≠ .polling ∧ s.calls s.threadId = none
  | .runInLoop tid _ => s.CanCall tid
  | .queueInLoop tid _ => s.CanCall tid
  | .proceed tid => s.calls tid ≠ none

end Reactor

def reactorMachine (Task : Type) :
    Machine (Reactor Task) (ReactorStep Task) (ReactorEvent Task) ObjectFault where
  step := Reactor.step
  Allowed := Reactor.Allowed

end WebsocketCpp
