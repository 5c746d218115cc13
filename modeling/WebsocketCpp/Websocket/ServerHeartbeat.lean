import WebsocketCpp.Net.Connection
import WebsocketCpp.Websocket.HeartbeatRecv
import WebsocketCpp.Websocket.WebSocketServer

/-!
# The connections of a server and its heartbeat

`WebSocketServer` (`websocket/WebSocketServer.cpp`) with the callbacks that it gives to its connections
and the timer of its heartbeat. Each event is one step: a callback runs in the loop as part of what calls
it, and the timer closes and erases without the loop in between.
-/

namespace WebsocketCpp

/-- What stops a server. -/
inductive ServerFault where
  /-- In a connection. -/
  | object (e : ObjectFault)
  /-- In a decoder. -/
  | frame (e : Fault)
  deriving DecidableEq, Repr

inductive TrackEvent where
  | conn (p : Nat) (e : ConnEvent)
  | recv (e : RecvEvent)
  deriving DecidableEq, Repr

abbrev Track := Traced TrackEvent ServerFault

/-- `WebSocketServer::onConnNew` (`WebSocketServer.cpp:48-57`), which takes the next moment. -/
def WebSocketServer.onConnNew (conn : Nat) (s : Serving) : Serve Serving := do
  let moment := s.moments 0
  -- `data` is a null pointer
  let (heart, _) ← s.heart.updateConn moment.header conn moment.now ⟨[], 0⟩
  pure ⟨heart, fun n => s.moments (n + 1)⟩

/-- `forceClose` in a thread other than the loop (`NetConnection.cpp:221-228`), with the task it posts. -/
def ConnUse.forceClose (u : ConnUse) : ConnUse :=
  if u.conn.state = .eConnected then
    { u with conn.state := .eDisconnected, functorList := u.functorList ++ [.handleClose] }
  else u

/-- A `NetConnection` of the server. `established` is set when the posted `connEstablished` has been
executed. -/
structure Peer where
  use : ConnUse
  established : Bool

/-- The heartbeat with the moments to come, and the connections by address. -/
structure TrackingServer where
  serving : WebSocketServer.Serving
  peers : Nat → Option Peer

inductive TrackStep where
  | newConnAccept (p : Nat)
  | connEstablished (p : Nat)
  /-- A step of a connection, with what new memory for a `WSProtocol` holds. -/
  | conn (p : Nat) (a : ConnStep) (heap : Nat → UInt8)
  | timerCallback (now : Timestamp)

namespace TrackingServer

/-- The callbacks of a connection. `writeComplFunc_` is not set. -/
def serverFuncs : ConnFuncs := ⟨true, true, false, true⟩

def start (moments : Nat → WebSocketServer.Moment) : TrackingServer := ⟨⟨.new, moments⟩, fun _ => none⟩

def setPeer (s : TrackingServer) (p : Nat) (peer : Peer) : TrackingServer :=
  { s with peers := Function.update s.peers p (some peer) }

/-- The object at an address. -/
def object (s : TrackingServer) (p : Nat) : Track Peer :=
  match s.peers p with
  | some peer => pure peer
  | none => Traced.fail (.object .useAfterFree)

/-- The callbacks of the server. -/
def onConn (p : Nat) (heap : Nat → UInt8) (s : WebSocketServer.Serving) (e : ConnEvent) :
    Track WebSocketServer.Serving := do
  Traced.emit (.conn p e)
  match e with
  | .connCallbackFunc _ =>
    Traced.mapFault .frame (Traced.mapOut (.recv ∘ .serve) (WebSocketServer.onConnNew p s))
  | .msgRecvFunc bytes => do
    let (s, _) ← Traced.mapFault .frame (Traced.mapOut (.recv ∘ .serve)
      (Traced.handle (WebSocketServer.serve p) s (decodeFrame (.new heap) bytes)))
    pure s
  | .send _ | .closeFunc | .getsockError | .shutdownWrite => pure s

def connEstablished (s : TrackingServer) (p : Nat) : Track TrackingServer := do
  let peer ← s.object p
  let (serving, conn) ← Traced.handle (onConn p fun _ => 0) s.serving
    (Traced.mapFault .object peer.use.conn.connEstablished)
  pure ({ s with serving := serving }.setPeer p ⟨{ peer.use with conn := conn }, true⟩)

def useConn (s : TrackingServer) (p : Nat) (a : ConnStep) (heap : Nat → UInt8) :
    Track TrackingServer := do
  let peer ← s.object p
  let (serving, use) ← Traced.handle (onConn p heap) s.serving
    (Traced.mapFault .object (peer.use.step a))
  pure ({ s with serving := serving }.setPeer p { peer with use := use })

/-- The connection that the timer has found. -/
def onRecv (s : TrackingServer) (e : RecvEvent) : Track TrackingServer := do
  Traced.emit (.recv e)
  match e with
  | .forceClose p => do
    let peer ← s.object p
    pure (s.setPeer p { peer with use := peer.use.forceClose })
  | .serve _ => pure s

def timerCallback (s : TrackingServer) (now : Timestamp) : Track TrackingServer := do
  let (s, heart) ← Traced.handle onRecv s
    (Traced.mapFault .frame (s.serving.heart.timerCallback now))
  pure { s with serving.heart := heart }

def step (s : TrackingServer) : TrackStep → Track TrackingServer
  | .newConnAccept p => pure (s.setPeer p ⟨.start (.new serverFuncs), false⟩)
  | .connEstablished p => s.connEstablished p
  | .conn p a heap => s.useConn p a heap
  | .timerCallback now => s.timerCallback now

/-- A connection is constructed at a free address, and used when it is established. -/
def Allowed (s : TrackingServer) : TrackStep → Prop
  | .newConnAccept p => s.peers p = none
  | .connEstablished p => ∃ peer, s.peers p = some peer ∧ peer.established = false
  | .conn p a _ => ∃ peer, s.peers p = some peer ∧ peer.established = true ∧ peer.use.Allowed a
  | .timerCallback _ => True

end TrackingServer

def trackMachine : Machine TrackingServer TrackStep TrackEvent ServerFault where
  step := TrackingServer.step
  Allowed := TrackingServer.Allowed

end WebsocketCpp
