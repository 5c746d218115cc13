import Mathlib.Data.List.AList
import Mathlib.Logic.Function.Basic
import WebsocketCpp.Fault
import WebsocketCpp.Misc.Decimal
import WebsocketCpp.Misc.Run

/-!
# The connections of a server

`NetServer` (`net/NetServer.cpp`): the map `conns_` from ids to connections. A connection that closes
has its entry removed by a task of the server's loop. `NetConnection` objects are never deleted while
the server lives, so that their addresses are not used again.
-/

namespace WebsocketCpp

/-- `struct in_addr`, byte by byte. -/
structure InAddr where
  b1 : BitVec 8
  b2 : BitVec 8
  b3 : BitVec 8
  b4 : BitVec 8
  deriving DecidableEq, Repr

/-- `struct sockaddr_in`, with the port in network byte order. -/
structure SockaddrIn where
  sinAddr : InAddr
  sinPort : BitVec 16
  deriving DecidableEq, Repr

/-- `sockets::network2Host16` (`SocketOpts.cpp:248-251`) on a little-endian host. -/
def network2Host16 (net16 : BitVec 16) : BitVec 16 := net16.rotateLeft 8

/-- `sockets::toIp` (`SocketOpts.cpp:236-241`). -/
def toIp (addr : SockaddrIn) : List Char :=
  decimal addr.sinAddr.b1.toNat ++ '.' :: (decimal addr.sinAddr.b2.toNat ++
    '.' :: (decimal addr.sinAddr.b3.toNat ++ '.' :: decimal addr.sinAddr.b4.toNat))

/-- The members of `NetConnection` that tell connections apart, and whether `event_` is there. -/
structure ServerConn where
  connId : List Char
  remoteAddr : SockaddrIn
  event : Bool
  deriving DecidableEq

/-- The members of `NetServer` that keep the connections. 0 is the null pointer. -/
structure NetServer where
  connIndex : Nat
  conns : AList fun _ : List Char => Nat

namespace NetServer

/-- `NetServer::NetServer` (`NetServer.cpp:10-25`). -/
def new : NetServer := ⟨0, ∅⟩

/-- The size of the buffer that an id is printed to. -/
def csmax : Nat := 64

/-- `snprintf(buf, sizeof(buf), "%s#%d#%d", ipstr, port, connIndex_)`. -/
def printId (ipstr : List Char) (port : BitVec 16) (connIndex : Nat) : List Char :=
  (ipstr ++ '#' :: (decimal port.toNat ++ '#' :: decimal connIndex)).take (csmax - 1)

/-- `NetServer::newConnAccept` (`NetServer.cpp:65-93`), with the address of the new connection. -/
def newConnAccept (s : NetServer) (conn : Nat) (clientAddr : SockaddrIn) : NetServer × ServerConn :=
  let ipstr := toIp clientAddr
  let port := network2Host16 clientAddr.sinPort
  let buf := printId ipstr port s.connIndex
  ({ s with conns := s.conns.insert buf conn }, ⟨buf, clientAddr, true⟩)

/-- `NetServer::removeConnInLoop` (`NetServer.cpp:106-111`). -/
def removeConnInLoop (s : NetServer) (conn : ServerConn) : NetServer :=
  { s with conns := s.conns.erase conn.connId }

/-- `NetServer::getconn` (`NetServer.cpp:125-133`). `operator[]` adds a null pointer for an unknown
key. -/
def getconn (s : NetServer) (connid : List Char) : NetServer × Nat :=
  if s.conns.entries.length = 0 then (s, 0)
  else
    match s.conns.lookup connid with
    | some conn => (s, conn)
    | none => ({ s with conns := s.conns.insert connid 0 }, 0)

end NetServer

/-! ## Runs of a server -/

/-- A server, its connections by address, the tasks `removeConnInLoop` in the `functorList_` of its
loop, and the connections that have been removed. -/
structure ServerUse where
  server : NetServer
  conns : Nat → Option ServerConn
  functorList : List Nat
  removed : List Nat

inductive ServerStep where
  | newConnAccept (conn : Nat) (clientAddr : SockaddrIn)
  /-- `handleClose` of a connection, in the server's own loop or in another one. -/
  | handleClose (conn : Nat) (isInLoopThread : Bool)
  /-- The loop of the server executes its first task. -/
  | runTask
  | getconn (connid : List Char)

namespace ServerUse

def start : ServerUse := ⟨.new, fun _ => none, [], []⟩

/-- The object at an address. -/
def object (u : ServerUse) (conn : Nat) : Traced Empty ObjectFault ServerConn :=
  match u.conns conn with
  | some c => pure c
  | none => Traced.fail .useAfterFree

def removeConnInLoop (u : ServerUse) (conn : Nat) : Traced Empty ObjectFault ServerUse := do
  let c ← u.object conn
  pure { u with server := u.server.removeConnInLoop c, removed := conn :: u.removed }

/-- `NetServer::removeConn` (`NetServer.cpp:100-104`), the close callback of every connection. -/
def removeConn (u : ServerUse) (conn : Nat) (isInLoopThread : Bool) :
    Traced Empty ObjectFault ServerUse :=
  if isInLoopThread then u.removeConnInLoop conn
  else pure { u with functorList := u.functorList ++ [conn] }

def step (u : ServerUse) : ServerStep → Traced Empty ObjectFault ServerUse
  | .newConnAccept conn clientAddr =>
    let (server, c) := u.server.newConnAccept conn clientAddr
    pure { u with server := server, conns := Function.update u.conns conn (some c) }
  | .handleClose conn isInLoopThread => do
    let c ← u.object conn
    let u ← u.removeConn conn isInLoopThread
    pure { u with conns := Function.update u.conns conn (some { c with event := false }) }
  | .runTask =>
    match u.functorList with
    | [] => pure u
    | conn :: functorList => { u with functorList := functorList }.removeConnInLoop conn
  | .getconn connid => pure { u with server := (u.server.getconn connid).1 }

/-- A connection is constructed at a free address, and closed as long as it has its `event_`. -/
def Allowed (u : ServerUse) : ServerStep → Prop
  | .newConnAccept conn _ => conn ≠ 0 ∧ u.conns conn = none
  | .handleClose conn _ => ∃ c, u.conns conn = some c ∧ c.event = true
  | .runTask => u.functorList ≠ []
  | .getconn _ => True

end ServerUse

def serverMachine : Machine ServerUse ServerStep Empty ObjectFault where
  step := ServerUse.step
  Allowed := ServerUse.Allowed

end WebsocketCpp
