import WebsocketCpp.Websocket.DecodeFrame

/-!
# The heartbeat

The parts of `HeartbeatRecv` and `HeartbeatSender` (`websocket/Heartbeat.cpp`) that decide which
messages reach the application. A connection is known by the address of its `NetConnection`.
-/

namespace WebsocketCpp

/-- The string "PING". -/
def csping : List UInt8 := [0x50, 0x49, 0x4E, 0x47]

/-- The string "PONG". -/
def cspong : List UInt8 := [0x50, 0x4F, 0x4E, 0x47]

/-- `HeartbeatSender::HeartState` (`Heartbeat.h`). -/
inductive HeartState where
  | eWaitPing
  | eWaitPong
  | eReconnect
  | eToBeClosed
  deriving DecidableEq, Repr

/-- `HeartbeatSender::processPong` (`Heartbeat.cpp:23-26`). -/
def processPong (_ : HeartState) : HeartState := .eWaitPing

/-- What the server does with a message: a buffer sent back to the peer, or a call of
`onConnMsgFunc_`. -/
inductive ServerEvent where
  | sent (conn : Nat) (buff : List UInt8)
  | message (conn : Nat) (call : FrameCall)
  deriving DecidableEq, Repr

abbrev Serve := Traced ServerEvent Fault

/-- The calls of `onConnMsgFunc_` among the events. -/
def appCalls (events : List ServerEvent) : List (Nat × FrameCall) :=
  events.filterMap fun
    | .sent _ _ => none
    | .message conn call => some (conn, call)

/-- `len == str.length() && str.compare(std::string(data, len)) == 0`. -/
def callEquals (call : FrameCall) (str : List UInt8) : Except Fault Bool :=
  if call.len = str.length then
    if call.len ≤ call.data.length then .ok (call.data.take call.len = str)
    else .error .readPastEnd
  else .ok false

/-- `HeartbeatRecv::processPing` (`Heartbeat.cpp:198-218`). `header` is what the local header of
`encodeFrame` holds. -/
def processPing (header : WSHead) (conn : Nat) (call : FrameCall) : Serve Nat := do
  if ← Traced.ofExcept (callEquals call csping) then
    let _ ← Traced.mapOut (.sent conn) (encodeFrame header cspong .ePongFrame)
    pure 1
  else pure 0

/-- `HeartbeatRecv`: the connections and the second of their last message. -/
structure HeartbeatRecv where
  connList : List (Nat × Nat)

/-- The time of the first entry of a connection is set; without one, an entry is added at the
end. -/
def touch (conn now : Nat) : List (Nat × Nat) → List (Nat × Nat)
  | [] => [(conn, now)]
  | entry :: rest =>
    if entry.1 = conn then (conn, now) :: rest else entry :: touch conn now rest

/-- `HeartbeatRecv::updateConn` (`Heartbeat.cpp:160-179`). -/
def HeartbeatRecv.updateConn (h : HeartbeatRecv) (header : WSHead) (conn now : Nat)
    (call : FrameCall) : Serve (HeartbeatRecv × Nat) := do
  let ret ← processPing header conn call
  pure (⟨touch conn now h.connList⟩, ret)

end WebsocketCpp
