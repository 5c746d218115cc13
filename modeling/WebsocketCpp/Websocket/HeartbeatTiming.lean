import WebsocketCpp.Websocket.ClientHeartbeat
import WebsocketCpp.Websocket.HeartbeatRecv

/-!
# The two heartbeats of a connection

A client and a server on one clock, from the `start` of the client's heartbeat on. Whenever something
happens that takes time, its steps come before a deadline: 2 seconds after `start` or after the time for
which the timer was set.
-/

namespace WebsocketCpp

inductive TimedEvent where
  | client (e : ClientEvent)
  | recv (e : RecvEvent)
  deriving DecidableEq, Repr

abbrev TimedRun := Traced TimedEvent (ObjectFault ⊕ Fault)

/-- The client and the heartbeat of the server at a time. `since` is when `start` was called, or the time
for which the timer was set that has fired last; `first` is the time of the first `updateConn` of the
connection, and `delivered` the last ping that the server has read. -/
structure TimedHeartbeat where
  client : HeartbeatClient
  recv : HeartbeatRecv
  time : Timestamp
  since : Option Timestamp
  first : Option Timestamp
  delivered : Nat

inductive TimedStep where
  | client (now : Timestamp) (a : ClientStep)
  /-- The server reads the next ping of the connection. -/
  | ping (now : Timestamp) (header : WSHead)
  | recv (a : RecvStep)

def RecvStep.now : RecvStep → Timestamp
  | .updateConn _ _ now _ => now
  | .timerCallback now => now

def TimedStep.now : TimedStep → Timestamp
  | .client now _ => now
  | .ping now _ => now
  | .recv a => a.now

/-- 2 seconds. -/
def csDelay : Int := 2 * Timestamp.csMicrosecondsPerSecond

namespace HeartbeatClient

/-- The time for which the timer of the heartbeat was set that the events run. -/
def fired (c : HeartbeatClient) (out : List ClientEvent) : Option Timestamp :=
  out.findSome? fun
    | .timer (.run p index) =>
      if index ∈ c.own then (c.timers.queue.heap p).map Timer.expiration else none
    | _ => none

end HeartbeatClient

namespace TimedHeartbeat

/-- The client calls `start` next. The server has just been started. -/
def start (client : HeartbeatClient) : TimedHeartbeat :=
  ⟨client, .new, 0, none, none, client.sender.sent⟩

/-- `start` is called, or the timer fires. -/
def sinceAfter (s : TimedHeartbeat) (now : Timestamp) (out : List ClientEvent) : Option Timestamp :=
  if s.client.sender.callbacks.head? = some .startSend then some now
  else (s.client.fired out).or s.since

/-- The step is an `updateConn` of the connection. -/
def firstAfter (s : TimedHeartbeat) (conn : Nat) : RecvStep → Option Timestamp
  | .updateConn _ conn' now _ => if conn' = conn then s.first.or (some now) else s.first
  | .timerCallback _ => s.first

def useRecv (s : TimedHeartbeat) (conn : Nat) (a : RecvStep) : TimedRun TimedHeartbeat := do
  let recv ← Traced.mapOut .recv (Traced.mapFault .inr (s.recv.step a))
  pure { s with recv := recv, time := a.now, first := s.firstAfter conn a }

def step (conn : Nat) (s : TimedHeartbeat) : TimedStep → TimedRun TimedHeartbeat
  | .client now a => do
    let x := s.client.step a
    let client ← Traced.mapOut .client (Traced.mapFault .inl x)
    pure { s with client := client, time := now, since := s.sinceAfter now x.out }
  | .ping now header =>
    { s with delivered := s.delivered + 1 }.useRecv conn (.updateConn header conn now (.of csping))
  | .recv a => s.useRecv conn a

/-- A ping is on its way, or about to be sent, or `start` has not returned. -/
def Open (s : TimedHeartbeat) : Prop :=
  s.delivered < s.client.sender.sent ∨ s.client.sender.callbacks ≠ [] ∨
    ∃ t ∈ s.client.sender.threads, t.place = .testWaitPing ∨ t.place = .sendHeartbeat

/-- The time comes before every deadline. Between two pings that is the one of the `eventRead` that
runs the timer. -/
structure InTime (s : TimedHeartbeat) (now : Timestamp) : Prop where
  le : s.time ≤ now
  first : s.since = none → ∀ first, s.first = some first → now ≤ first + csDelay
  sent : ∀ since, s.since = some since → s.Open → now ≤ since + csDelay
  read : s.since ≠ none → ¬s.Open → ∀ e ∈ s.client.timers.queue.timerLists, s.client.Own e →
    now ≤ e.first + csDelay

/-- What the client may do while its connection stands: `start` reads the clock when it says so, and a
timer that is due finds that the last ping has been answered and reads the state before or after its
thread sets it; a pong is processed when the state has been set. -/
def ClientAllowed (s : TimedHeartbeat) (now : Timestamp) : ClientStep → Prop
  | .onConnected _ t _ => t = now
  | .eventRead evtime _ reads _ => evtime ≤ now ∧
    ∀ e ∈ s.client.timers.queue.timerLists, s.client.Own e → e.first ≤ evtime →
      s.client.sender.answered = s.client.sender.sent ∧
      ((reads e.second).1 = s.client.sender.state ∨ (reads e.second).1 = .eWaitPong) ∧
      now ≤ (reads e.second).2 ∧ (reads e.second).2 ≤ e.first + csDelay
  | .timerHandle _ => True
  | .processPong _ => ∀ t ∈ s.client.sender.threads, t.place ≠ .setWaitPong
  | .connect | .startInLoop _ _ | .connectorHandleWrite _ _ | .peerClose => False

def Allowed (s : TimedHeartbeat) : TimedStep → Prop
  | .client now a => s.InTime now ∧ s.client.Allowed a ∧ s.ClientAllowed now a
  | .ping now _ => s.InTime now ∧ s.delivered < s.client.sender.sent
  | .recv (.updateConn _ _ now call) => s.InTime now ∧ call.len ≤ call.data.length
  | .recv (.timerCallback now) => s.InTime now

end TimedHeartbeat

/-- On the server the connection is at the address `conn`. -/
def timedMachine (conn : Nat) : Machine TimedHeartbeat TimedStep TimedEvent (ObjectFault ⊕ Fault) where
  step := TimedHeartbeat.step conn
  Allowed := TimedHeartbeat.Allowed

end WebsocketCpp
