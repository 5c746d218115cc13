import WebsocketCpp.Base.Timer
import WebsocketCpp.Fault
import WebsocketCpp.Misc.Traced
import WebsocketCpp.Websocket.Heartbeat

/-!
# The heartbeat of the client

`HeartbeatSender` (`websocket/Heartbeat.cpp:12-132`) with the callback `WSNet::onConnected` that starts
it, in the steps that its threads interleave: `onConnected` and `processPong` run in the loop, and every
fire of a timer runs `timerHandle` in a thread of its own. Each test of `state_`, each assignment to it
and each ping is a step.
-/

namespace WebsocketCpp

/-- `HeartbeatSender::HeartTimer::nextTimestamp` (`Heartbeat.cpp:101-132`). -/
def HeartState.nextTimestamp (hs : HeartState) (now : Timestamp) : Timestamp :=
  let PingTimeInterval := 10
  let WaitPongTimeout := 5
  let ReconnectTimeout := 8
  match hs with
  | .eWaitPing => now.addSeconds (PingTimeInterval * Timestamp.csMicrosecondsPerSecond)
  | .eWaitPong => now.addSeconds (WaitPongTimeout * Timestamp.csMicrosecondsPerSecond)
  | .eReconnect => now.addSeconds (ReconnectTimeout * Timestamp.csMicrosecondsPerSecond)
  | .eToBeClosed => now

/-- Where a thread is in `timerHandle` (`Heartbeat.cpp:48-75`). -/
inductive HandlePlace where
  /-- Before `state_ == eWaitPing`. -/
  | testWaitPing
  | sendHeartbeat
  /-- Before `setHeartState(eWaitPong)`. -/
  | setWaitPong
  /-- Before `state_ == eWaitPong`. -/
  | testWaitPong
  /-- Before `net_->connect()`. -/
  | connect
  /-- Before `setHeartState(eReconnect)`. -/
  | setReconnect
  deriving DecidableEq, Repr

/-- Where the loop is in `WSNet::onConnected` (`WSNet.cpp:78-93`) and in `start`, which that calls
(`Heartbeat.cpp:28-46`). -/
inductive NotifyPlace where
  /-- Before `getHeartState() == eReconnect`. -/
  | testReconnect
  /-- Before `setHeartState(eWaitPing)`. -/
  | setWaitPing
  | sendHeartbeat
  /-- Before `getHeartState() == eWaitPing`. -/
  | testWaitPing
  /-- In `start`, before its `sendHeartbeat`. -/
  | startSend
  /-- In `start`, before `setHeartState(eWaitPong)`. -/
  | startSet
  /-- In `start`, before the timer is made. -/
  | startTimer
  deriving DecidableEq, Repr

inductive SenderEvent where
  | ping
  /-- `net_->connect()`, and whether the last ping had been answered when the timer fired. -/
  | connect (answered : Bool)
  /-- `loop_->runAt(timeout)`, with the expiration of the timer. -/
  | runAt (expiration : Timestamp)
  deriving DecidableEq, Repr

abbrev Beats := Traced SenderEvent ObjectFault

/-- A thread in `timerHandle`. `answered` is whether the last ping had been answered when the timer
fired. -/
structure HandleThread where
  place : HandlePlace
  answered : Bool
  deriving DecidableEq, Repr

/-- `HeartbeatSender` with its threads and the calls of `onConnected` that the loop has still to finish.
Pings are numbered: `sent` is the last that has been sent, and `answered` the last whose pong has been
processed. -/
structure HeartbeatSender where
  state : HeartState
  callbacks : List NotifyPlace
  threads : List HandleThread
  sent : Nat
  answered : Nat

namespace HeartbeatSender

/-- `HeartbeatSender::HeartbeatSender` (`Heartbeat.cpp:12-16`). -/
def new : HeartbeatSender := ⟨.eWaitPing, [], [], 0, 0⟩

def setHeartState (s : HeartbeatSender) (state : HeartState) : HeartbeatSender :=
  { s with state := state }

/-- The pong that answers the ping `k` is processed. -/
def processPong (s : HeartbeatSender) (k : Nat) : HeartbeatSender :=
  { s with state := WebsocketCpp.processPong s.state, answered := max s.answered k }

/-- `onConnected` is called. -/
def onConnected (s : HeartbeatSender) : HeartbeatSender :=
  { s with callbacks := s.callbacks ++ [.testReconnect] }

/-- A timer fires: a thread enters `timerHandle`. -/
def fire (s : HeartbeatSender) : HeartbeatSender :=
  { s with threads := s.threads ++ [⟨.testWaitPing, s.answered = s.sent⟩] }

/-- The loop is at another place. -/
def goto (s : HeartbeatSender) (places : List NotifyPlace) : HeartbeatSender :=
  { s with callbacks := places }

def sendHeartbeat (s : HeartbeatSender) : Beats HeartbeatSender := do
  Traced.emit .ping
  pure { s with sent := s.sent + 1 }

/-- The next step of the loop in `onConnected` at the time `now`. -/
def notify (s : HeartbeatSender) (now : Timestamp) : Beats HeartbeatSender :=
  match s.callbacks with
  | [] => pure s
  | .testReconnect :: rest =>
    pure (s.goto ((if s.state = .eReconnect then .setWaitPing else .testWaitPing) :: rest))
  | .setWaitPing :: rest => pure ((s.setHeartState .eWaitPing).goto (.sendHeartbeat :: rest))
  | .sendHeartbeat :: rest => do
    pure ((← s.sendHeartbeat).goto (.testWaitPing :: rest))
  | .testWaitPing :: rest =>
    pure (s.goto (if s.state = .eWaitPing then .startSend :: rest else rest))
  | .startSend :: rest => do
    pure ((← s.sendHeartbeat).goto (.startSet :: rest))
  | .startSet :: rest => pure ((s.setHeartState .eWaitPong).goto (.startTimer :: rest))
  | .startTimer :: rest => do
    Traced.emit (.runAt (s.state.nextTimestamp now))
    pure (s.goto rest)

/-- A thread is at another place. -/
def move (s : HeartbeatSender) (i : Nat) (t : HandleThread) (place : HandlePlace) : HeartbeatSender :=
  { s with threads := s.threads.set i { t with place := place } }

/-- A thread returns. -/
def finish (s : HeartbeatSender) (i : Nat) : HeartbeatSender :=
  { s with threads := s.threads.eraseIdx i }

/-- The next step of the thread `i` in `timerHandle`. -/
def timerHandle (s : HeartbeatSender) (i : Nat) : Beats HeartbeatSender :=
  match s.threads[i]? with
  | none => pure s
  | some t =>
    match t.place with
    | .testWaitPing =>
      pure (s.move i t (if s.state = .eWaitPing then .sendHeartbeat else .testWaitPong))
    | .sendHeartbeat => do
      pure ((← s.sendHeartbeat).move i t .setWaitPong)
    | .setWaitPong => pure ((s.setHeartState .eWaitPong).finish i)
    | .testWaitPong => pure (if s.state = .eWaitPong then s.move i t .connect else s.finish i)
    | .connect => do
      Traced.emit (.connect t.answered)
      pure (s.move i t .setReconnect)
    | .setReconnect => pure ((s.setHeartState .eReconnect).finish i)

end HeartbeatSender

end WebsocketCpp
