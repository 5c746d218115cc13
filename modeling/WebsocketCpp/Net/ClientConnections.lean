import WebsocketCpp.Net.Connection

/-!
# The connections of a client

`NetClient` (`net/NetClient.cpp`) makes a connection for each socket that its connector gives it, and
deletes the one before, in the thread of its loop. Other threads get at `conn_` without a lock and call
`send`, which `WSNet` and the heartbeat do (`websocket/WSNet.cpp:108-120`, `websocket/Heartbeat.cpp:87-98`);
`disconnect` holds `mutex_` meanwhile. A function that has been bound for the loop keeps the address of
its connection. How the loop is woken up for it is that of `Base/Reactor.lean` and left out here.
-/

namespace WebsocketCpp

/-- What `send` and `shutdown` bind for the loop. -/
inductive ClientTask where
  | sendInReactor (data : List UInt8)
  | shutdownInReactor
  deriving DecidableEq, Repr

/-- A function in `functorList_`, with the address of its connection. -/
structure BoundTask where
  conn : Nat
  task : ClientTask
  deriving DecidableEq, Repr

inductive SessionEvent where
  | conn (p : Nat) (e : ConnEvent)
  /-- The memory of a connection is freed. -/
  | deleted (p : Nat)
  deriving DecidableEq, Repr

abbrev Sessions := Traced SessionEvent ObjectFault

/-- Where the loop is in `establishConnection`. -/
inductive EstablishPlace where
  /-- Before `mutex_` is taken. -/
  | lock
  /-- Before `~NetConnection` of the old connection. -/
  | destruct (old : Nat)
  /-- At the end of `delete conn_`. -/
  | free (old : Nat)
  /-- Before `conn_ = conn`. -/
  | assign
  /-- Before `conn->connEstablished()`. -/
  | established
  deriving DecidableEq, Repr

/-- Where another thread is that has got a connection of the client. -/
inductive ClientCall where
  /-- `getConn` has returned. -/
  | getConn (data : List UInt8)
  /-- In `disconnect`, with `mutex_`. -/
  | disconnect
  /-- In `send` or `shutdown`, before `loop_->runInLoop`. -/
  | runInLoop (task : ClientTask)
  deriving DecidableEq, Repr

/-- A client, with its `NetConnection` objects by address and the tasks of its loop. -/
structure ClientUse where
  funcs : ConnFuncs
  conn : Option Nat
  /-- The thread in `disconnect` that has taken it. -/
  mutex : Option Nat
  conns : Nat → Option Connection
  functorList : List BoundTask
  /-- With the connections that the threads use. -/
  calls : Nat → Option (Nat × ClientCall)
  /-- With the new connection. -/
  establishing : Option (Nat × EstablishPlace)

inductive ClientUseStep where
  /-- The connector calls `newConnCreateCallback_`. `p` is the address of the new connection, `named` whether
  `getpeername` and `getsockname` succeed. -/
  | establishConnection (p : Nat) (named : Bool)
  /-- The next step of it. -/
  | establish
  /-- The poller has reported a connection's socket. -/
  | handEvent (p : Nat) (revent : BitVec 32) (read : ReadAnswer) (write : WriteAnswer)
  /-- The loop executes the first task. `shut` is whether `shutdown` succeeds. -/
  | runTask (answer : WriteAnswer) (shut : Bool)
  /-- `getConn()->send(...)` in the loop thread. -/
  | send (data : List UInt8) (answer : WriteAnswer)
  /-- `getConn()` in another thread, which will send `data`. -/
  | getConn (tid : Nat) (data : List UInt8)
  | disconnect (tid : Nat)
  /-- The next step of a thread. -/
  | proceed (tid : Nat)

namespace ClientUse

def start (funcs : ConnFuncs) : ClientUse := ⟨funcs, none, none, fun _ => none, [], fun _ => none, none⟩

def setConn (s : ClientUse) (p : Nat) (c : Option Connection) : ClientUse :=
  { s with conns := Function.update s.conns p c }

def setCall (s : ClientUse) (tid : Nat) (call : Option (Nat × ClientCall)) : ClientUse :=
  { s with calls := Function.update s.calls tid call }

/-- The end of a thread's call, at which `disconnect` gives `mutex_` back. -/
def leave (s : ClientUse) (tid : Nat) : ClientUse :=
  { s with mutex := if s.mutex = some tid then none else s.mutex }.setCall tid none

/-- The object at an address. -/
def object (s : ClientUse) (p : Nat) : Sessions Connection :=
  match s.conns p with
  | some c => pure c
  | none => Traced.fail .useAfterFree

/-- A function of a connection. -/
def useConn (s : ClientUse) (p : Nat) (f : Connection → Conn Connection) : Sessions ClientUse := do
  let c ← s.object p
  pure (s.setConn p (some (← Traced.mapOut (.conn p) (f c))))

/-- `NetClient::establishConnection` up to the lock (`NetClient.cpp:39-62`). -/
def establishConnection (s : ClientUse) (p : Nat) (named : Bool) : Sessions ClientUse := do
  Traced.require (named = true) .assertion
  pure { s.setConn p (some (.new s.funcs)) with establishing := some (p, .lock) }

/-- `NetConnection::~NetConnection` in the loop thread (`NetConnection.cpp:27-31, 221-228`), where `runInLoop`
calls `handleClose` at once. -/
def destruct (c : Connection) : Conn Connection :=
  if c.state = .eConnected then ({ c with state := .eDisconnected } : Connection).handleClose else pure c

/-- The rest of `NetClient::establishConnection` (`NetClient.cpp:63-74`). -/
def establish (s : ClientUse) : Sessions ClientUse :=
  match s.establishing with
  | none => pure s
  | some (p, .lock) =>
    pure { s with establishing := some (p, match s.conn with | some old => .destruct old | none => .assign) }
  | some (p, .destruct old) => do
    pure { ← s.useConn old destruct with establishing := some (p, .free old) }
  | some (p, .free old) => do
    let _ ← s.object old
    Traced.emit (.deleted old)
    pure { s.setConn old none with establishing := some (p, .assign) }
  | some (p, .assign) => pure { s with conn := some p, establishing := some (p, .established) }
  | some (p, .established) => do
    pure { ← s.useConn p Connection.connEstablished with establishing := none }

/-- `NetConnection::send` in the loop thread (`NetConnection.cpp:133-141`). -/
def sendAtOnce (c : Connection) (data : List UInt8) (answer : WriteAnswer) : Conn Connection :=
  if c.state = .eConnected then c.sendInReactor data answer else pure c

/-- A task of the loop, with the answers to the `write` or the `shutdown` it makes: `shutdownWrite` asserts
that the latter succeeds (`SocketOpts.cpp:118-124`). -/
def runTask (c : Connection) (answer : WriteAnswer) (shut : Bool) : ClientTask → Conn Connection
  | .sendInReactor data => c.sendInReactor data answer
  | .shutdownInReactor => do
    if ¬(← c.handler).isWriteable then Traced.require (shut = true) .assertion
    c.shutdownInReactor

/-- The state that `send` and `shutdown` test first. -/
def test (s : ClientUse) (tid p : Nat) (task : ClientTask) : Sessions ClientUse := do
  let c ← s.object p
  pure (if c.state = .eConnected then s.setCall tid (some (p, .runInLoop task)) else s.leave tid)

/-- The rest of a call: `send` and `shutdown` (`NetConnection.cpp:133-151, 250-256`), which follow `loop_`
after the test. -/
def proceed (s : ClientUse) (tid : Nat) : Sessions ClientUse :=
  match s.calls tid with
  | none => pure s
  | some (p, .getConn data) => s.test tid p (.sendInReactor data)
  | some (p, .disconnect) => s.test tid p .shutdownInReactor
  | some (p, .runInLoop task) => do
    let _ ← s.object p
    let func : BoundTask := ⟨p, task⟩
    pure ({ s with functorList := s.functorList ++ [func] }.leave tid)

def step (s : ClientUse) : ClientUseStep → Sessions ClientUse
  | .establishConnection p named => s.establishConnection p named
  | .establish => s.establish
  | .handEvent p revent read write => s.useConn p (·.handEvent revent read write)
  | .runTask answer shut =>
    match s.functorList with
    | [] => pure s
    | func :: functorList =>
      { s with functorList := functorList }.useConn func.conn (runTask · answer shut func.task)
  | .send data answer =>
    match s.conn with
    | none => pure s
    | some p => s.useConn p (sendAtOnce · data answer)
  | .getConn tid data => pure (s.setCall tid (s.conn.map fun p => (p, .getConn data)))
  | .disconnect tid =>
    match s.conn with
    | none => pure s
    | some p => pure ({ s with mutex := some tid }.setCall tid (some (p, .disconnect)))
  | .proceed tid => s.proceed tid

/-- `mutex_` is held by the loop. -/
def Locked (s : ClientUse) : Prop :=
  ∃ p place, s.establishing = some (p, place) ∧ place ≠ .lock ∧ place ≠ .established

/-- Which steps can be next. The loop does one thing at a time, new memory is free, and the poller reports
a handler that is registered. -/
def Allowed (s : ClientUse) : ClientUseStep → Prop
  | .establishConnection p _ => s.establishing = none ∧ s.conns p = none
  | .establish => ∃ p place, s.establishing = some (p, place) ∧ (place = .lock → s.mutex = none)
  | .handEvent p _ _ _ => s.establishing = none ∧ ∃ c, s.conns p = some c ∧ c.event ≠ none
  | .runTask _ _ => s.establishing = none ∧ s.functorList ≠ []
  | .send _ _ => s.establishing = none
  | .getConn tid _ => s.calls tid = none
  | .disconnect tid => s.calls tid = none ∧ s.mutex = none ∧ ¬s.Locked
  | .proceed tid => s.calls tid ≠ none

end ClientUse

def clientUseMachine : Machine ClientUse ClientUseStep SessionEvent ObjectFault where
  step := ClientUse.step
  Allowed := ClientUse.Allowed

end WebsocketCpp
