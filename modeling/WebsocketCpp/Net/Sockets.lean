import Mathlib.Data.Finset.Basic
import WebsocketCpp.Net.Connection
import WebsocketCpp.Net.Connector

/-!
# The sockets of a process

The ways a descriptor takes through `Acceptor`, `Connector`, `NetClient`, `NetServer` and
`NetConnection`. The descriptors that the kernel has opened in `accept` and `socket` are a component
of the state; the listening socket and the descriptors of the reactors are not among them.
-/

namespace WebsocketCpp

inductive SocketEvent where
  /-- `accept` has returned a descriptor. -/
  | accept (connfd : Int)
  /-- `::close` outside of `Connector`. -/
  | close (sockfd : Int)
  | connector (client : Nat) (e : ConnectorEvent)
  | conn (conn : Nat) (e : ConnEvent)
  deriving DecidableEq, Repr

abbrev Sockets := Traced SocketEvent ObjectFault

/-- The descriptor that an event closes. -/
def SocketEvent.closed : SocketEvent → Option Int
  | .close sockfd | .connector _ (.close sockfd) => some sockfd
  | _ => none

/-- A `NetConnection` with its descriptor. `established` is set when the posted `connEstablished` has
been executed. -/
structure SocketConn where
  fd : Int
  use : ConnUse
  established : Bool

/-- The members of `NetClient`. `funcs` are the callbacks it gives to its connections. -/
structure NetClient where
  connector : Connector
  conn : Option Nat
  funcs : ConnFuncs

/-- A process with the clients and the acceptor of a server, its `NetConnection` objects by address,
and the descriptors that are open. -/
structure Process where
  opened : Finset Int
  /-- Whether `acceptConnFunc_` has been set. -/
  acceptConnFunc : Bool
  /-- The callbacks that `NetServer` gives to its connections. -/
  serverFuncs : ConnFuncs
  clients : Nat → NetClient
  conns : Nat → Option SocketConn

namespace Process

/-- Nothing has been accepted, and no attempt made. -/
def start (acceptConnFunc : Bool) (serverFuncs : ConnFuncs) (clientFuncs : Nat → ConnFuncs) :
    Process where
  opened := ∅
  acceptConnFunc := acceptConnFunc
  serverFuncs := serverFuncs
  clients i := ⟨.new, none, clientFuncs i⟩
  conns _ := none

def setConn (s : Process) (p : Nat) (c : Option SocketConn) : Process :=
  { s with conns := Function.update s.conns p c }

def setConnector (s : Process) (i : Nat) (c : Connector) : Process :=
  { s with clients := Function.update s.clients i { s.clients i with connector := c } }

def setClientConn (s : Process) (i p : Nat) : Process :=
  { s with clients := Function.update s.clients i { s.clients i with conn := some p } }

/-- The object at an address. -/
def object (s : Process) (p : Nat) : Sockets SocketConn :=
  match s.conns p with
  | some c => pure c
  | none => Traced.fail .useAfterFree

/-- `new NetConnection(...)` with the callbacks that are set afterwards. -/
def newConnection (s : Process) (p : Nat) (sockfd : Int) (funcs : ConnFuncs) : Process :=
  s.setConn p (some ⟨sockfd, .start (.new funcs), false⟩)

/-- `NetConnection::connEstablished` of an object. -/
def connEstablished (s : Process) (p : Nat) : Sockets Process := do
  let c ← s.object p
  let conn ← Traced.mapOut (.conn p) c.use.conn.connEstablished
  pure (s.setConn p (some { c with use.conn := conn, established := true }))

/-- `delete conn` in the thread of its loop. The destructor calls `forceClose`, which closes at once
there (`NetConnection.cpp:27-31`). -/
def deleteConn (s : Process) (p : Nat) : Sockets Process := do
  let c ← s.object p
  if c.use.conn.state = .eConnected then
    let conn := { c.use.conn with state := .eDisconnected }
    let _ ← Traced.mapOut (.conn p) conn.handleClose
  pure (s.setConn p none)

/-- `NetClient::establishConnection` (`NetClient.cpp:39-74`). `p` is the address of the new connection,
`named` whether `getpeername` and `getsockname` succeed. -/
def establishConnection (s : Process) (i p : Nat) (named : Bool) (sockfd : Int) :
    Sockets Process := do
  Traced.require (named = true) .assertion
  let s := s.newConnection p sockfd (s.clients i).funcs
  let s ←
    match (s.clients i).conn with
    | some old => s.deleteConn old
    | none => pure s
  (s.setClientConn i p).connEstablished p

/-- What the kernel and the owner of a connector do for it. -/
def onConnector (i p : Nat) (named : Bool) (s : Process) (e : ConnectorEvent) : Sockets Process := do
  Traced.emit (.connector i e)
  match e with
  | .socket sockfd => pure { s with opened := insert sockfd s.opened }
  | .close sockfd => pure { s with opened := s.opened.erase sockfd }
  | .newConnCreateCallback sockfd => s.establishConnection i p named sockfd
  | .startInLoop _ | .runDelay _ _ | .cancelTimer _ => pure s

/-- A function of the connector of a client. -/
def useConnector (s : Process) (i p : Nat) (named : Bool) (x : Connecting Connector) :
    Sockets Process := do
  let (s, connector) ← Traced.handle (onConnector i p named) s x
  pure (s.setConnector i connector)

/-- `NetServer::newConnAccept` (`NetServer.cpp:65-93`), up to the task it posts. -/
def newConnAccept (s : Process) (p : Nat) (named : Bool) (sockfd : Int) : Sockets Process := do
  Traced.require (named = true) .assertion
  pure (s.newConnection p sockfd s.serverFuncs)

/-- `Acceptor::handleRead` (`Acceptor.cpp:34-56`), with what `accept` returns. -/
def acceptorHandleRead (s : Process) (connfd : Int) (p : Nat) (named : Bool) : Sockets Process := do
  Traced.emit (.accept connfd)
  let s := if 0 ≤ connfd then { s with opened := insert connfd s.opened } else s
  if 0 < connfd then
    if s.acceptConnFunc then s.newConnAccept p named connfd
    else do
      Traced.emit (.close connfd)
      pure { s with opened := s.opened.erase connfd }
  else pure s

/-- A step of a connection, its tasks and the threads that use it. -/
def useConn (s : Process) (p : Nat) (a : ConnStep) : Sockets Process := do
  let c ← s.object p
  let use ← Traced.mapOut (.conn p) (c.use.step a)
  pure (s.setConn p (some { c with use := use }))

end Process

inductive SocketStep where
  | acceptorHandleRead (connfd : Int) (p : Nat) (named : Bool)
  /-- A loop executes the `connEstablished` that `newConnAccept` has posted. -/
  | connEstablished (p : Nat)
  /-- `Connector::startInLoop` of a client, however it has come about. -/
  | startInLoop (i : Nat) (sockfd : Int) (err : ConnectErrno)
  | connectorHandleWrite (i : Nat) (err : Nat) (p : Nat) (named : Bool)
  | conn (p : Nat) (a : ConnStep)

namespace Process

def step (s : Process) : SocketStep → Sockets Process
  | .acceptorHandleRead connfd p named => s.acceptorHandleRead connfd p named
  | .connEstablished p => s.connEstablished p
  | .startInLoop i sockfd err => s.useConnector i 0 false ((s.clients i).connector.startInLoop sockfd err)
  | .connectorHandleWrite i err p named =>
    s.useConnector i p named ((s.clients i).connector.handleWrite err)
  | .conn p a => s.useConn p a

/-- The kernel hands out descriptors that are not open, and memory that is free. A connection that is
not established has no events and no tasks. -/
def Allowed (s : Process) : SocketStep → Prop
  | .acceptorHandleRead connfd p _ => connfd ∉ s.opened ∧ s.conns p = none
  | .connEstablished p => ∃ c, s.conns p = some c ∧ c.established = false
  | .startInLoop _ sockfd _ => 0 ≤ sockfd ∧ sockfd ∉ s.opened
  | .connectorHandleWrite i _ p _ => (s.clients i).connector.event ≠ none ∧ s.conns p = none
  | .conn p a => ∃ c, s.conns p = some c ∧ c.established = true ∧ c.use.Allowed a

end Process

def socketMachine : Machine Process SocketStep SocketEvent ObjectFault where
  step := Process.step
  Allowed := Process.Allowed

end WebsocketCpp
