import WebsocketCpp.Base.SelectPoller

/-!
# Handling what `poll` reports

`Reactor::loop` calls `handEvent` of every handler in `activeList_` (`base/Reactor.cpp:93-99`,
`base/EventHandler.cpp:52-84`). The callbacks, and the tasks of the loop, do anything with the handlers
of the reactor: they can delete one that is still to come in `activeList_`, or the one that has called
them.
-/

namespace WebsocketCpp

/-- The branches of `handEvent` that call something, in order. -/
inductive HandBranch where
  | close
  | error
  | read
  | write
  deriving DecidableEq, Repr

namespace HandBranch

variable {Callback : Type}

/-- The test of the branch, which reads `revents_` each time. -/
def taken (ev : EventHandler Callback) : HandBranch → Bool
  | .close => ev.reports POLLHUP && !ev.reports POLLIN
  | .error => ev.reports (POLLERR ||| POLLNVAL)
  | .read => ev.reports (POLLIN ||| POLLPRI ||| POLLRDHUP)
  | .write => ev.reports POLLOUT

def callback (ev : EventHandler Callback) : HandBranch → Option Callback
  | .close => ev.closeCallback
  | .error => ev.errorCallback
  | .read => ev.readCallback
  | .write => ev.writeCallback

/-- What the branch calls. -/
def called (ev : EventHandler Callback) (branch : HandBranch) : Option Callback :=
  if branch.taken ev then branch.callback ev else none

def next : HandBranch → Option HandBranch
  | .close => some .error
  | .error => some .read
  | .read => some .write
  | .write => none

/-- The branch and those behind it. -/
def onwards : HandBranch → List HandBranch
  | .close => [.close, .error, .read, .write]
  | .error => [.error, .read, .write]
  | .read => [.read, .write]
  | .write => [.write]

end HandBranch

/-- A call of a callback, with the handler that makes it. -/
structure HandCall (Callback : Type) where
  p : Nat
  fd : Int
  branch : HandBranch
  callback : Callback
  deriving DecidableEq, Repr

/-- A reactor's handlers, and where its loop is: the branch of `handEvent` it comes to next, and in
`activeList` the handlers behind. -/
structure EventLoop (Callback : Type) extends PollUse Callback where
  handling : Option (Nat × HandBranch)

inductive EventStep (Callback : Type) where
  /-- `poll`, at the head of the loop, or what callbacks and tasks do. -/
  | use (a : PollStep)
  | setReadCallback (p : Nat) (rcb : Callback)
  | setWriteCallback (p : Nat) (wcb : Callback)
  | setCloseCallback (p : Nat) (ccb : Callback)
  /-- The loop goes on. -/
  | next

def PollStep.isPoll : PollStep → Bool
  | .poll _ => true
  | _ => false

namespace EventLoop

variable {Callback : Type}

def new : EventLoop Callback := ⟨.new, none⟩

/-- All handlers have been called. -/
def Idle (s : EventLoop Callback) : Prop := s.handling = none ∧ s.activeList = []

/-- An assignment to a callback of a handler. -/
def setCallback (s : EventLoop Callback) (p : Nat) (f : EventHandler Callback → EventHandler Callback) :
    Except ObjectFault (EventLoop Callback) := do
  let h ← s.object p
  .ok { s with handlers := Function.update s.handlers p (some { h with ev := f h.ev }) }

/-- `(*it)->handEvent()`, a branch at a time, and `it++`. -/
def next (s : EventLoop Callback) : Traced (HandCall Callback) ObjectFault (EventLoop Callback) :=
  match s.handling with
  | some (p, branch) => do
    let h ← Traced.ofExcept (s.object p)
    match branch.called h.ev with
    | some callback => Traced.emit ⟨p, h.fd, branch, callback⟩
    | none => pure ()
    pure { s with handling := branch.next.map (p, ·) }
  | none =>
    match s.activeList with
    | [] => pure s
    | p :: rest => pure { s with activeList := rest, handling := some (p, .close) }

def step (s : EventLoop Callback) :
    EventStep Callback → Traced (HandCall Callback) ObjectFault (EventLoop Callback)
  | .use a => Traced.ofExcept ((s.apply a).map fun u => { s with toPollUse := u })
  | .setReadCallback p rcb => Traced.ofExcept (s.setCallback p (·.setReadCallback rcb))
  | .setWriteCallback p wcb => Traced.ofExcept (s.setCallback p (·.setWriteCallback wcb))
  | .setCloseCallback p ccb => Traced.ofExcept (s.setCallback p (·.setCloseCallback ccb))
  | .next => s.next

/-- The loop polls when it has called all handlers. The others keep to what `PollUse` allows. -/
def Allowed (s : EventLoop Callback) : EventStep Callback → Prop
  | .use a => s.toPollUse.Allowed a ∧ (a.isPoll → s.Idle)
  | .setReadCallback p _ | .setWriteCallback p _ | .setCloseCallback p _ => ∃ h, s.handlers p = some h
  | .next => ¬s.Idle

end EventLoop

def eventMachine (Callback : Type) :
    Machine (EventLoop Callback) (EventStep Callback) (HandCall Callback) ObjectFault where
  step := EventLoop.step
  Allowed := EventLoop.Allowed

end WebsocketCpp
