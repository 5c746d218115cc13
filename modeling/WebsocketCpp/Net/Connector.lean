import WebsocketCpp.Base.Timer
import WebsocketCpp.Fault
import WebsocketCpp.Misc.Run

/-!
# Connecting

`Connector` (`net/Connector.cpp`). Its functions run in the loop thread. The descriptor that `socket`
returns and the outcomes of `connect` and of `SO_ERROR` are arguments.
-/

namespace WebsocketCpp

/-- `Connector::NetState` (`Connector.h:53-57`). -/
inductive ConnectorState where
  | eDisconnected
  | eConnected
  deriving DecidableEq, Repr

/-- `err` in `Connector::connect`: 0, or one of the values of `errno` that it tells apart. -/
inductive ConnectErrno where
  | zero
  | EINPROGRESS
  | EISCONN
  | EAGAIN
  | EADDRINUSE
  | EADDRNOTAVAIL
  | ECONNREFUSED
  | EACCES
  | EPERM
  | EAFNOSUPPORT
  | EALREADY
  | EBADF
  | EFAULT
  | ENOTSOCK
  | other
  deriving DecidableEq, Repr

inductive ConnectorEvent where
  /-- A call of `startInLoop`, with the state that it finds. -/
  | startInLoop (state : ConnectorState)
  | socket (sockfd : Int)
  | close (sockfd : Int)
  | newConnCreateCallback (sockfd : Int)
  | runDelay (id : TimerId) (delayMs : Nat)
  | cancelTimer (id : TimerId)
  deriving DecidableEq, Repr

abbrev Connecting := Traced ConnectorEvent ObjectFault

/-- The members of `Connector`. Of `event_` it is the descriptor. -/
structure Connector where
  state : ConnectorState
  event : Option Int
  retryDelayMs : Nat
  retryTimerId : TimerId

namespace Connector

def csInitRetryDelay : Nat := 5000
def csMaxRetryDelay : Nat := 30 * 1000

/-- `Connector::Connector` (`Connector.cpp:13-20`). -/
def new : Connector := ⟨.eDisconnected, none, csInitRetryDelay, .null⟩

/-- `if (retryTimerId_.tm_ != NULL) loop_->cancelTimer(retryTimerId_)`. -/
def cancelRetry (c : Connector) : Connecting Unit :=
  if c.retryTimerId.tm ≠ 0 then Traced.emit (.cancelTimer c.retryTimerId) else pure ()

/-- `Connector::retry` (`Connector.cpp:151-162`), up to its `return`. -/
def retry (c : Connector) (sockfd : Int) : Connecting Connector := do
  Traced.emit (.close sockfd)
  let c := { c with state := .eDisconnected }
  c.cancelRetry
  pure c

/-- What stands in `retry` behind the `return` (`Connector.cpp:164-165`) and is never reached, with
the id that `runDelay` answers. -/
def scheduleRetry (c : Connector) (id : TimerId) : Connecting Connector := do
  Traced.emit (.runDelay id c.retryDelayMs)
  pure { c with retryTimerId := id, retryDelayMs := min (c.retryDelayMs * 2) csMaxRetryDelay }

/-- `Connector::connectImpl` (`Connector.cpp:169-178`). -/
def connectImpl (c : Connector) (sockfd : Int) : Connector :=
  match c.event with
  | none => { c with event := some sockfd }
  | some _ => c

/-- `Connector::connect` (`Connector.cpp:111-146`). -/
def connect (c : Connector) (sockfd : Int) (err : ConnectErrno) : Connecting Connector := do
  Traced.emit (.socket sockfd)
  match err with
  | .zero | .EINPROGRESS | .EISCONN => pure (c.connectImpl sockfd)
  | .EAGAIN | .EADDRINUSE | .EADDRNOTAVAIL | .ECONNREFUSED => c.retry sockfd
  | .EACCES | .EPERM | .EAFNOSUPPORT | .EALREADY | .EBADF | .EFAULT | .ENOTSOCK => pure c
  | .other => pure c

/-- `Connector::startInLoop` (`Connector.cpp:102-106`). -/
def startInLoop (c : Connector) (sockfd : Int) (err : ConnectErrno) : Connecting Connector := do
  Traced.emit (.startInLoop c.state)
  Traced.require (c.state = .eDisconnected) .assertion
  c.connect sockfd err

/-- `Connector::resetEvent` (`Connector.cpp:69-90`) in the loop thread, where `resetInLoop` runs at
once. -/
def resetEvent (c : Connector) : Connector × Int :=
  match c.event with
  | none => (c, -1)
  | some sockfd => ({ c with event := none }, sockfd)

/-- `Connector::handleWrite` (`Connector.cpp:30-55`). `err` is what `getsockError` returns. -/
def handleWrite (c : Connector) (err : Nat) : Connecting Connector := do
  let (c, sockfd) := c.resetEvent
  if err ≠ 0 then c.retry sockfd
  else do
    let c := { c with state := .eConnected }
    Traced.emit (.newConnCreateCallback sockfd)
    c.cancelRetry
    pure c

end Connector

/-! ## What an attempt does -/

namespace ConnectErrno

/-- The connection is there or on its way. -/
def Pending (err : ConnectErrno) : Prop := err = .zero ∨ err = .EINPROGRESS ∨ err = .EISCONN

/-- The outcomes that `connect` answers with `retry`. -/
def Retried (err : ConnectErrno) : Prop :=
  err = .EAGAIN ∨ err = .EADDRINUSE ∨ err = .EADDRNOTAVAIL ∨ err = .ECONNREFUSED

instance (err : ConnectErrno) : Decidable err.Pending :=
  inferInstanceAs (Decidable (_ ∨ _ ∨ _))

instance (err : ConnectErrno) : Decidable err.Retried :=
  inferInstanceAs (Decidable (_ ∨ _ ∨ _ ∨ _))

end ConnectErrno

namespace Connector

variable {c : Connector}

/-- No retry timer has been set: nothing sets one. -/
def NoTimer (c : Connector) : Prop := c.retryTimerId.tm = 0

theorem cancelRetry_eq (h : c.NoTimer) : c.cancelRetry = pure () := if_neg fun hne => hne h

theorem retry_eq (h : c.NoTimer) (sockfd : Int) :
    c.retry sockfd = ⟨[.close sockfd], .ok { c with state := .eDisconnected }⟩ := by
  have hcancel : ({ c with state := .eDisconnected } : Connector).cancelRetry = pure () :=
    cancelRetry_eq (c := { c with state := .eDisconnected }) h
  simp only [retry, hcancel]
  rfl

/-- What an attempt leaves, by its outcome. -/
theorem startInLoop_eq (h : c.NoTimer) (hstate : c.state = .eDisconnected) (sockfd : Int)
    (err : ConnectErrno) : c.startInLoop sockfd err =
      if err.Pending then
        ⟨[.startInLoop .eDisconnected, .socket sockfd], .ok (c.connectImpl sockfd)⟩
      else if err.Retried then
        ⟨[.startInLoop .eDisconnected, .socket sockfd, .close sockfd], .ok c⟩
      else ⟨[.startInLoop .eDisconnected, .socket sockfd], .ok c⟩ := by
  have hsame : ({ c with state := .eDisconnected } : Connector) = c := by
    rw [← hstate]
  have hretry := retry_eq h sockfd
  rw [hsame] at hretry
  rw [startInLoop, hstate, Traced.require_true rfl, pure_bind]
  cases err
  case EAGAIN | EADDRINUSE | EADDRNOTAVAIL | ECONNREFUSED =>
    change (do Traced.emit _; Traced.emit _; c.retry sockfd) = _
    rw [hretry]
    rfl
  all_goals rfl

theorem startInLoop_of_connected (hstate : c.state = .eConnected) (sockfd : Int)
    (err : ConnectErrno) :
    c.startInLoop sockfd err = ⟨[.startInLoop .eConnected], .error .assertion⟩ := by
  rw [startInLoop, hstate]
  rfl

/-- An attempt that is decided by the event. -/
theorem handleWrite_eq (h : c.NoTimer) {sockfd : Int} (hevent : c.event = some sockfd) (err : Nat) :
    c.handleWrite err =
      if err = 0 then
        ⟨[.newConnCreateCallback sockfd], .ok { c with state := .eConnected, event := none }⟩
      else ⟨[.close sockfd], .ok { c with state := .eDisconnected, event := none }⟩ := by
  have hreset : c.resetEvent = ({ c with event := none }, sockfd) := by rw [resetEvent, hevent]
  rw [handleWrite, hreset]
  by_cases herr : err = 0
  · have hcancel : ({ c with state := .eConnected, event := none } : Connector).cancelRetry =
        pure () := cancelRetry_eq (c := { c with state := .eConnected, event := none }) h
    simp only [herr, ne_eq, not_true_eq_false, if_false, if_true, hcancel]
    rfl
  · simp only [herr, ne_eq, not_false_eq_true, if_true, if_false]
    exact retry_eq (c := { c with event := none }) h sockfd

@[simp] theorem event_new : new.event = none := rfl

theorem noTimer_new : new.NoTimer := rfl

theorem noTimer_connectImpl (h : c.NoTimer) (sockfd : Int) : (c.connectImpl sockfd).NoTimer := by
  rw [connectImpl]
  split <;> exact h

@[simp] theorem state_connectImpl (sockfd : Int) : (c.connectImpl sockfd).state = c.state := by
  rw [connectImpl]
  split <;> rfl

end Connector

/-! ## Runs of a connector -/

/-- A connector with its retry timers that are queued, and the sockets that it has handed over. -/
structure ConnectorUse where
  connector : Connector
  started : Bool
  retryTimers : List TimerId
  connections : List Int

inductive ConnectorStep where
  /-- `start` in the loop thread. -/
  | start (sockfd : Int) (err : ConnectErrno)
  | handleWrite (err : Nat)
  /-- The first of the retry timers calls `startInLoop`. -/
  | retryTimer (sockfd : Int) (err : ConnectErrno)

namespace ConnectorUse

def new : ConnectorUse := ⟨.new, false, [], []⟩

/-- What the loop and the owner of the connector do for it. -/
def onEvent (u : ConnectorUse) (e : ConnectorEvent) : Connecting ConnectorUse := do
  Traced.emit e
  match e with
  | .newConnCreateCallback sockfd => pure { u with connections := sockfd :: u.connections }
  | .runDelay id _ => pure { u with retryTimers := u.retryTimers ++ [id] }
  | .cancelTimer id => pure { u with retryTimers := u.retryTimers.erase id }
  | .startInLoop _ | .socket _ | .close _ => pure u

def perform (u : ConnectorUse) (x : Connecting Connector) : Connecting ConnectorUse := do
  let (u, connector) ← Traced.handle onEvent u x
  pure { u with connector := connector }

def step (u : ConnectorUse) : ConnectorStep → Connecting ConnectorUse
  | .start sockfd err => { u with started := true }.perform (u.connector.startInLoop sockfd err)
  | .handleWrite err => u.perform (u.connector.handleWrite err)
  | .retryTimer sockfd err =>
    { u with retryTimers := u.retryTimers.tail }.perform (u.connector.startInLoop sockfd err)

/-- `start` is called once; the poller reports a handler that is registered, and a timer that is queued
runs. -/
def Allowed (u : ConnectorUse) : ConnectorStep → Prop
  | .start _ _ => u.started = false
  | .handleWrite _ => u.connector.event ≠ none
  | .retryTimer _ _ => u.retryTimers ≠ []

end ConnectorUse

def connectorMachine : Machine ConnectorUse ConnectorStep ConnectorEvent ObjectFault where
  step := ConnectorUse.step
  Allowed := ConnectorUse.Allowed

end WebsocketCpp
