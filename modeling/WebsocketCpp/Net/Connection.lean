import Mathlib.Logic.Function.Basic
import WebsocketCpp.Base.EventHandler
import WebsocketCpp.Misc.Run
import WebsocketCpp.Net.NetConnection

/-!
# A connection and its event handler

`NetConnection` (`net/NetConnection.cpp`) with its `event_`, which is deleted when the connection is
closed, and the tasks that other threads post to its loop. The bytes that are read are taken as they
come; `Net/NetConnection.lean` has the buffers.
-/

namespace WebsocketCpp

/-- The functions that the constructor binds. -/
inductive NetCallback where
  | handleRead
  | handleWrite
  | handleClose
  | handleError
  deriving DecidableEq, Repr

/-- The answer to `readv`: some bytes, 0 or -1. -/
inductive ReadAnswer where
  | data (bytes : List UInt8)
  | eof
  | failed
  deriving DecidableEq, Repr

inductive ConnEvent where
  /-- Of the send path. -/
  | send (e : SendEvent)
  | msgRecvFunc (bytes : List UInt8)
  /-- With the state that the callback finds. -/
  | connCallbackFunc (state : NetState)
  | closeFunc
  | getsockError
  | shutdownWrite
  deriving DecidableEq, Repr

abbrev Conn := Traced ConnEvent ObjectFault

/-- Which callbacks have been set. -/
structure ConnFuncs where
  connCallbackFunc : Bool
  msgRecvFunc : Bool
  writeCompleteFunc : Bool
  closeFunc : Bool

/-- The members of `NetConnection` without the read buffer. -/
structure Connection where
  state : NetState
  event : Option (EventHandler NetCallback)
  writeBuffer : List UInt8
  funcs : ConnFuncs

namespace Connection

/-- What `event_` points to. -/
def handler (c : Connection) : Conn (EventHandler NetCallback) :=
  match c.event with
  | some ev => pure ev
  | none => Traced.fail .nullPointer

/-- `NetConnection::NetConnection` (`NetConnection.cpp:8-26`). -/
def new (funcs : ConnFuncs) : Connection where
  state := .eDisconnected
  event :=
    let ev := EventHandler.new.setReadCallback .handleRead
    let ev := ev.setWriteCallback .handleWrite
    let ev := ev.setWriteCallback .handleClose
    some (ev.setWriteCallback .handleError)
  writeBuffer := []
  funcs := funcs

/-- `event_->enableRead()`, and so on. -/
def updateEvent (c : Connection) (f : EventHandler NetCallback → EventHandler NetCallback) :
    Conn Connection := do
  let ev ← c.handler
  pure { c with event := some (f ev) }

/-- `NetConnection::connEstablished` (`NetConnection.cpp:233-244`). -/
def connEstablished (c : Connection) : Conn Connection := do
  let c := { c with state := .eConnected }
  if c.funcs.connCallbackFunc then Traced.emit (.connCallbackFunc c.state)
  c.updateEvent EventHandler.enableRead

/-- `NetConnection::handleClose` (`NetConnection.cpp:97-115`). The log line follows `event_`. -/
def handleClose (c : Connection) : Conn Connection := do
  let _ ← c.handler
  let c := { c with state := .eDisconnected }
  if c.funcs.connCallbackFunc then Traced.emit (.connCallbackFunc c.state)
  if c.funcs.closeFunc then Traced.emit .closeFunc
  pure { c with event := none }

/-- `NetConnection::handleError` (`NetConnection.cpp:120-126`). -/
def handleError (c : Connection) : Conn Connection := do
  let _ ← c.handler
  Traced.emit .getsockError
  pure c

/-- `NetConnection::handleRead` (`NetConnection.cpp:37-61`). -/
def handleRead (c : Connection) (answer : ReadAnswer) : Conn Connection := do
  let _ ← c.handler
  match answer with
  | .data bytes => do
    if c.funcs.msgRecvFunc then Traced.emit (.msgRecvFunc bytes)
    pure c
  | .eof => c.handleClose
  | .failed => c.handleError

/-- `if (writeCompleteFunc_ != NULL) writeCompleteFunc_(this)`. -/
def writeComplete (c : Connection) : Conn Unit :=
  if c.funcs.writeCompleteFunc then Traced.emit (.send .writeComplete) else pure ()

/-- `NetConnection::handleWrite` (`NetConnection.cpp:67-91`). -/
def handleWrite (c : Connection) (answer : WriteAnswer) : Conn Connection := do
  let _ ← c.handler
  match answer with
  | .count writelen =>
    if 0 < writelen then do
      Traced.emit (.send (.accepted (c.writeBuffer.take writelen)))
      Traced.require (writelen ≤ c.writeBuffer.length) .assertion
      let c := { c with writeBuffer := c.writeBuffer.drop writelen }
      if c.writeBuffer.isEmpty then do
        let c ← c.updateEvent EventHandler.disableWrite
        c.writeComplete
        pure c
      else pure c
    else Traced.fail .assertion
  | .failed _ => Traced.fail .assertion

/-- The first half of `sendInReactor` (`NetConnection.cpp:172-201`). -/
def writeNow (c : Connection) (data : List UInt8) (answer : WriteAnswer) :
    Conn (Bool × Nat × Nat) :=
  if c.writeBuffer.isEmpty then do
    let _ ← c.handler
    match answer with
    | .count nowwrite => do
      Traced.emit (.send (.accepted (data.take nowwrite)))
      let remain := data.length - nowwrite
      if remain = 0 then c.writeComplete
      pure (false, nowwrite, remain)
    | .failed errno =>
      pure (errno ≠ .EWOULDBLOCK ∧ (errno = .EPIPE ∨ errno = .ECONNRESET), 0, 0)
  else pure (false, 0, 0)

/-- `NetConnection::sendInReactor` (`NetConnection.cpp:159-216`). -/
def sendInReactor (c : Connection) (data : List UInt8) (answer : WriteAnswer) : Conn Connection :=
  if c.state = .eDisconnected then pure c
  else do
    let (bret, nowwrite, remain) ← c.writeNow data answer
    if bret = false ∧ 0 < remain then do
      let c := { c with writeBuffer := c.writeBuffer ++ (data.drop nowwrite).take remain }
      if ¬(← c.handler).isWriteable then c.updateEvent EventHandler.enableWrite else pure c
    else pure c

/-- `NetConnection::shutdownInReactor` (`NetConnection.cpp:258-264`), where `shutdown` succeeds. -/
def shutdownInReactor (c : Connection) : Conn Connection := do
  if ¬(← c.handler).isWriteable then Traced.emit .shutdownWrite
  pure c

/-- A callback of the handler, with the answers to the `readv` or the `write` it makes. -/
def call (c : Connection) (read : ReadAnswer) (write : WriteAnswer) :
    NetCallback → Conn Connection
  | .handleRead => c.handleRead read
  | .handleWrite => c.handleWrite write
  | .handleClose => c.handleClose
  | .handleError => c.handleError

/-- `handEvent` of the connection's handler (`EventHandler.cpp:52-84`), when `poll` has reported
`revent`. After each callback it goes on to read its own `revents_`. -/
def handEvent (c : Connection) (revent : BitVec 32) (read : ReadAnswer) (write : WriteAnswer) :
    Conn Connection := do
  let c ← c.updateEvent (·.setRevents revent)
  (← c.handler).handEvent.foldlM (fun c callback => do
    let c ← c.call read write callback
    Traced.require (c.event ≠ none) .useAfterFree
    pure c) c

end Connection

/-! ## Connections and other threads -/

/-- What is bound for the loop of a connection. -/
inductive ConnTask where
  | sendInReactor (data : List UInt8)
  | handleClose
  | shutdownInReactor
  deriving DecidableEq, Repr

/-- Where another thread is, in a call that has found the connection connected. -/
inductive ConnCall where
  /-- In `forceClose`, before `state_ = eDisconnected`. -/
  | forceClose
  /-- Before `runInLoop`. -/
  | runInLoop (task : ConnTask)
  deriving DecidableEq, Repr

namespace Connection

/-- `NetConnection::send` from another thread (`NetConnection.cpp:133-152`), up to the test. -/
def send (c : Connection) (data : List UInt8) : Option ConnCall :=
  if c.state = .eConnected then some (.runInLoop (.sendInReactor data)) else none

/-- `NetConnection::forceClose` from another thread (`NetConnection.cpp:221-228`), up to the test. -/
def forceClose (c : Connection) : Option ConnCall :=
  if c.state = .eConnected then some .forceClose else none

/-- `NetConnection::shutdown` from another thread (`NetConnection.cpp:250-256`), up to the test. -/
def shutdown (c : Connection) : Option ConnCall :=
  if c.state = .eConnected then some (.runInLoop .shutdownInReactor) else none

/-- A task of the loop, with the answer to the `write` it makes. -/
def runTask (c : Connection) (answer : WriteAnswer) : ConnTask → Conn Connection
  | .sendInReactor data => c.sendInReactor data answer
  | .handleClose => c.handleClose
  | .shutdownInReactor => c.shutdownInReactor

end Connection

/-- A connection, its tasks in the loop's `functorList_`, and the threads that are inside a call. -/
structure ConnUse where
  conn : Connection
  functorList : List ConnTask
  calls : Nat → Option ConnCall

inductive ConnStep where
  | handleRead (answer : ReadAnswer)
  /-- The loop executes the first task. -/
  | runTask (answer : WriteAnswer)
  | send (tid : Nat) (data : List UInt8)
  | forceClose (tid : Nat)
  | shutdown (tid : Nat)
  /-- The next step of a call. -/
  | proceed (tid : Nat)

namespace ConnUse

def start (conn : Connection) : ConnUse := ⟨conn, [], fun _ => none⟩

def setCall (u : ConnUse) (tid : Nat) (call : Option ConnCall) : ConnUse :=
  { u with calls := Function.update u.calls tid call }

@[simp] theorem calls_setCall_self (u : ConnUse) (tid : Nat) (call : Option ConnCall) :
    (u.setCall tid call).calls tid = call := Function.update_self ..

theorem calls_setCall_of_ne (u : ConnUse) {tid tid' : Nat} (h : tid' ≠ tid)
    (call : Option ConnCall) : (u.setCall tid call).calls tid' = u.calls tid' :=
  Function.update_of_ne h ..

/-- The rest of a call: `forceClose` first sets the state. -/
def proceed (u : ConnUse) (tid : Nat) : ConnUse :=
  match u.calls tid with
  | none => u
  | some .forceClose =>
    { u with conn.state := .eDisconnected }.setCall tid (some (.runInLoop .handleClose))
  | some (.runInLoop task) => { u with functorList := u.functorList ++ [task] }.setCall tid none

def step (u : ConnUse) : ConnStep → Conn ConnUse
  | .handleRead answer => do
    pure { u with conn := ← u.conn.handleRead answer }
  | .runTask answer =>
    match u.functorList with
    | [] => pure u
    | task :: functorList => do
      pure { u with conn := ← u.conn.runTask answer task, functorList := functorList }
  | .send tid data => pure (u.setCall tid (u.conn.send data))
  | .forceClose tid => pure (u.setCall tid u.conn.forceClose)
  | .shutdown tid => pure (u.setCall tid u.conn.shutdown)
  | .proceed tid => pure (u.proceed tid)

/-- Which steps can be next: the poller reports the socket as long as the handler is registered. -/
def Allowed (u : ConnUse) : ConnStep → Prop
  | .handleRead _ => u.conn.event ≠ none
  | .runTask _ => u.functorList ≠ []
  | .send tid _ | .forceClose tid | .shutdown tid => u.calls tid = none
  | .proceed tid => u.calls tid ≠ none

end ConnUse

def connMachine : Machine ConnUse ConnStep ConnEvent ObjectFault where
  step := ConnUse.step
  Allowed := ConnUse.Allowed

end WebsocketCpp
