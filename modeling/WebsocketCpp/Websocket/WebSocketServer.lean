import WebsocketCpp.Net.NetConnection
import WebsocketCpp.Websocket.Heartbeat

/-!
# The server

The receive path of `WebSocketServer` (`websocket/WebSocketServer.cpp:60-109`) for one
connection, and `send` to it (`WebSocketServer.cpp:72-83`). Every call of `onConnMessage` has a
`WSProtocol` of its own.
-/

namespace WebsocketCpp

namespace WebSocketServer

/-- `WebSocketServer::onConnMessage` (`WebSocketServer.cpp:60-69`), as far as the calls of
`decFrameCallback`. -/
def onConnMessage (conn : NetConnection) (heap : Nat → UInt8) : Decode NetConnection := do
  let (data, readBuffer) ← Traced.ofExcept conn.readBuffer.readAll
  let _ ← decodeFrame (.new heap) data
  pure { conn with readBuffer := readBuffer }

/-- One `handleRead` of the connection, with `onConnMessage` as its message callback. -/
def handleRead (conn : NetConnection) (r : SocketRead) : Decode NetConnection := do
  let conn ← Traced.ofExcept (conn.handleRead r)
  onConnMessage conn r.heap

/-- The reads of a connection. -/
def handleReads (conn : NetConnection) (reads : List SocketRead) : Decode NetConnection :=
  reads.foldlM handleRead conn

/-- `WebSocketServer::decFrameCallback` (`WebSocketServer.cpp:87-109`). -/
def decFrameCallback (header : WSHead) (conn now : Nat) (heart : HeartbeatRecv)
    (call : FrameCall) : Serve HeartbeatRecv := do
  let (heart, ret) ← heart.updateConn header conn now call
  if ret ≠ 0 then
    pure heart
  else
    Traced.emit (.message conn call)
    pure heart

/-- What a call of `decFrameCallback` finds: the contents of a local header, and the second. -/
structure Moment where
  header : WSHead
  now : Nat

/-- The heartbeat, and the moments of the calls to come. -/
structure Serving where
  heart : HeartbeatRecv
  moments : Nat → Moment

/-- One call of `decFrameCallback`. -/
def serve (conn : Nat) (s : Serving) (call : FrameCall) : Serve Serving := do
  let moment := s.moments 0
  let heart ← decFrameCallback moment.header conn moment.now s.heart call
  pure ⟨heart, fun n => s.moments (n + 1)⟩

/-- The reads of a connection, with `decFrameCallback` as the callback of the decoder. -/
def receive (id : Nat) (s : Serving) (conn : NetConnection) (reads : List SocketRead) :
    Serve (Serving × NetConnection) :=
  Traced.handle (serve id) s (handleReads conn reads)

/-- `WebSocketServer::send` (`WebSocketServer.cpp:72-83`) to a connection that is found. Events and
value are those of `WSNet.send`. -/
def send (header : WSHead) (data : List UInt8) : Traced (List UInt8) Fault (List UInt8) :=
  encodeFrame header data .eTextFrame

end WebSocketServer

end WebsocketCpp
