import WebsocketCpp.Net.NetConnection
import WebsocketCpp.Websocket.Heartbeat

/-!
# The client

The receive path of `WSNet` (`websocket/WSNet.cpp:96-149`) and `send` (`WSNet.cpp:58-76`). One
`WSProtocol` lives as long as the client.
-/

namespace WebsocketCpp

/-- The members of `WSNet` that the receive path uses. -/
structure WSNet where
  conn : NetConnection
  proto : WSProtocol

namespace WSNet

/-- `WSNet::onConnMessage` (`WSNet.cpp:96-105`), as far as the calls of `decFrameCallback`. -/
def onConnMessage (net : WSNet) : Decode WSNet := do
  let (data, readBuffer) ← Traced.ofExcept net.conn.readBuffer.readAll
  let proto ← decodeFrame net.proto data
  pure { conn := { net.conn with readBuffer := readBuffer }, proto := proto }

/-- One `handleRead` of the connection, with `onConnMessage` as its message callback. -/
def handleRead (net : WSNet) (r : SocketRead) : Decode WSNet := do
  let conn ← Traced.ofExcept (net.conn.handleRead r)
  onConnMessage { net with conn := conn }

/-- The reads of a connection. -/
def handleReads (net : WSNet) (reads : List SocketRead) : Decode WSNet :=
  reads.foldlM handleRead net

/-- `WSNet::decFrameCallback` (`WSNet.cpp:123-149`). The event is a call of `msgRecvCallback_`,
the state that of the heartbeat. -/
def decFrameCallback (heart : HeartState) (call : FrameCall) : Decode HeartState := do
  if ← Traced.ofExcept (callEquals call cspong) then
    pure (processPong heart)
  else
    Traced.emit call
    pure heart

/-- The reads of a connection, with `decFrameCallback` as the callback of the decoder. -/
def receive (net : WSNet) (heart : HeartState) (reads : List SocketRead) :
    Decode (HeartState × WSNet) :=
  Traced.handle decFrameCallback heart (net.handleReads reads)

/-- `WSNet::send` (`WSNet.cpp:58-76`) once `bconnected_` is set. The events are the buffers that
`encFrameCallback` passes on to `NetConnection::send`; the value is what the memory at `data` holds
afterwards, since `encodeFrame` is given the caller's pointer. `header` is what the local header of
`encodeFrame` holds. -/
def send (header : WSHead) (data : List UInt8) (payloadType : OpCode) :
    Traced (List UInt8) Fault (List UInt8) :=
  encodeFrame header data payloadType

end WSNet

end WebsocketCpp
