import WebsocketCpp.Base.TimerQueue
import WebsocketCpp.Net.Connection
import WebsocketCpp.Net.Connector
import WebsocketCpp.Websocket.HeartbeatSender

/-!
# A client and its heartbeat

`WSNet` (`websocket/WSNet.cpp`) with its `NetClient` (`net/NetClient.cpp`), its heartbeat and the timers
of its loop. A function that the loop runs is one step, up to the `onConnected` that it calls, whose own
steps and those of the threads come in any order.
-/

namespace WebsocketCpp

inductive ClientEvent where
  | connector (e : ConnectorEvent)
  | conn (e : ConnEvent)
  | sender (e : SenderEvent)
  | timer (e : TimerEvent)
  deriving DecidableEq, Repr

abbrev ClientRun := Traced ClientEvent ObjectFault

/-- The client with the calls of `startInLoop` that have been posted. `own` are the indices of the timers
that `HeartbeatSender::start` has made. -/
structure HeartbeatClient where
  connector : Connector
  startInLoops : Nat
  conn : Option Connection
  sender : HeartbeatSender
  timers : TimerUse
  own : List Nat

inductive ClientStep where
  /-- `WSNet::connect`, by the application. -/
  | connect
  | startInLoop (sockfd : Int) (err : ConnectErrno)
  | connectorHandleWrite (err : Nat) (named : Bool)
  /-- The connection reads the end of the stream. -/
  | peerClose
  /-- The connection reads the pong that answers the ping `k`, or one that answers none for 0. -/
  | processPong (k : Nat)
  /-- The next step in `onConnected`, with the address of a new timer. -/
  | onConnected (p : Nat) (now : Timestamp) (clock : Clock)
  /-- The timers read the states and times `reads` in `nextTimestamp`. -/
  | eventRead (evtime : Timestamp) (expired : Bool) (reads : Nat → HeartState × Timestamp) (clock : Clock)
  /-- The next step of the thread `i`. -/
  | timerHandle (i : Nat)

namespace HeartbeatSender

/-- What an event of the connection means to the heartbeat. -/
def onConn (s : HeartbeatSender) : ConnEvent → HeartbeatSender
  | .connCallbackFunc _ => s.onConnected
  | .send _ | .msgRecvFunc _ | .closeFunc | .getsockError | .shutdownWrite => s

/-- What an event of the timers means to it. -/
def onTimer (own : List Nat) (s : HeartbeatSender) : TimerEvent → HeartbeatSender
  | .run _ index => if index ∈ own then s.fire else s
  | .deleted _ => s

end HeartbeatSender

namespace HeartbeatClient

/-- The callbacks of a connection. `writeCompleteCallback_` is not set. -/
def clientFuncs : ConnFuncs := ⟨true, true, false, true⟩

def start (q : TimerQueue) : HeartbeatClient := ⟨.new, 0, none, .new, ⟨q, [], []⟩, []⟩

/-- A function of the connection. -/
def useConn (c : HeartbeatClient) (x : Conn Connection) : ClientRun HeartbeatClient := do
  let (sender, conn) ← Traced.handle (fun s e => do
    Traced.emit (.conn e)
    pure (s.onConn e)) c.sender x
  pure { c with sender := sender, conn := some conn }

/-- `delete conn_`. The destructor calls `forceClose`, which closes at once in the loop
(`NetConnection.cpp:27-31`). -/
def deleteConn (c : HeartbeatClient) : ClientRun HeartbeatClient :=
  match c.conn with
  | some conn =>
    if conn.state = .eConnected then
      c.useConn ({ conn with state := .eDisconnected } : Connection).handleClose
    else pure c
  | none => pure c

/-- `NetClient::establishConnection` (`NetClient.cpp:39-74`). `named` is whether `getpeername` and
`getsockname` succeed. -/
def establishConnection (c : HeartbeatClient) (named : Bool) : ClientRun HeartbeatClient := do
  Traced.require (named = true) .assertion
  let c ← c.deleteConn
  c.useConn (Connection.new clientFuncs).connEstablished

/-- What the client does for its connector. -/
def onConnector (named : Bool) (c : HeartbeatClient) (e : ConnectorEvent) :
    ClientRun HeartbeatClient := do
  Traced.emit (.connector e)
  match e with
  | .newConnCreateCallback _ => c.establishConnection named
  | .startInLoop _ | .socket _ | .close _ | .runDelay _ _ | .cancelTimer _ => pure c

/-- A function of the connector. -/
def useConnector (c : HeartbeatClient) (named : Bool) (x : Connecting Connector) :
    ClientRun HeartbeatClient := do
  let (c, connector) ← Traced.handle (onConnector named) c x
  pure { c with connector := connector }

/-- The end of `HeartbeatSender::start` (`Heartbeat.cpp:37-45`): the timer repeats, and its interval of 1
second gives way to the algorithm. -/
def runAt (c : HeartbeatClient) (p : Nat) (expiration : Timestamp) (clock : Clock) :
    ClientRun HeartbeatClient := do
  let timers ← Traced.mapOut .timer (c.timers.step (.newTimer p expiration true true (some 1000000)))
  let timers ← Traced.mapOut .timer (timers.step (.addTimer p clock))
  pure { c with timers := timers, own := c.timers.queue.sIndexNum :: c.own }

/-- What the client does for its heartbeat. `connect` of another thread posts `startInLoop`. -/
def onSender (p : Nat) (clock : Clock) (c : HeartbeatClient) (e : SenderEvent) :
    ClientRun HeartbeatClient := do
  Traced.emit (.sender e)
  match e with
  | .ping => pure c
  | .connect _ => pure { c with startInLoops := c.startInLoops + 1 }
  | .runAt expiration => c.runAt p expiration clock

/-- A step of the heartbeat. -/
def useSender (c : HeartbeatClient) (p : Nat) (clock : Clock) (x : Beats HeartbeatSender) :
    ClientRun HeartbeatClient := do
  let (c, sender) ← Traced.handle (onSender p clock) c x
  pure { c with sender := sender }

/-- What the timers are restarted with. -/
def restarts (reads : Nat → HeartState × Timestamp) (p : Nat) : Restart :=
  ⟨(reads p).1.nextTimestamp (reads p).2, (reads p).2⟩

def eventRead (c : HeartbeatClient) (evtime : Timestamp) (expired : Bool)
    (reads : Nat → HeartState × Timestamp) (clock : Clock) : ClientRun HeartbeatClient := do
  let (sender, timers) ← Traced.handle (fun s e => do
    Traced.emit (.timer e)
    pure (s.onTimer c.own e)) c.sender
      (c.timers.step (.eventRead evtime expired (restarts reads) clock))
  pure { c with sender := sender, timers := timers }

def step (c : HeartbeatClient) : ClientStep → ClientRun HeartbeatClient
  | .connect => pure { c with startInLoops := c.startInLoops + 1 }
  | .startInLoop sockfd err =>
    { c with startInLoops := c.startInLoops - 1 }.useConnector false (c.connector.startInLoop sockfd err)
  | .connectorHandleWrite err named => c.useConnector named (c.connector.handleWrite err)
  | .peerClose =>
    match c.conn with
    | some conn => c.useConn (conn.handleRead .eof)
    | none => pure c
  | .processPong k => pure { c with sender := c.sender.processPong k }
  | .onConnected p now clock => c.useSender p clock (c.sender.notify now)
  | .eventRead evtime expired reads clock => c.eventRead evtime expired reads clock
  | .timerHandle i => c.useSender 0 ⟨0, 0⟩ (c.sender.timerHandle i)

/-- The entry is that of a timer that `start` has made. -/
def Own (c : HeartbeatClient) (e : TimerEntity) : Prop :=
  ∃ tm, c.timers.queue.heap e.second = some tm ∧ tm.index ∈ c.own

/-- The loop is not in `onConnected`. -/
def Idle (c : HeartbeatClient) : Prop := c.sender.callbacks = []

/-- The connection has its handler. -/
def Open (c : HeartbeatClient) : Prop := ∃ conn, c.conn = some conn ∧ conn.event ≠ none

/-- The loop does one thing at a time. The poller reports a handler that is registered, pongs answer pings
that have been sent, new memory is free, and the clock shows a time after the epoch. -/
def Allowed (c : HeartbeatClient) : ClientStep → Prop
  | .connect => True
  | .startInLoop _ _ => c.Idle ∧ 0 < c.startInLoops
  | .connectorHandleWrite _ _ => c.Idle ∧ c.connector.event ≠ none
  | .peerClose => c.Idle ∧ c.Open
  | .processPong k => c.Idle ∧ c.Open ∧ k ≤ c.sender.sent
  | .onConnected p now _ => ¬c.Idle ∧ c.timers.Free p ∧ now.valid
  | .eventRead _ _ reads _ => c.Idle ∧ ∀ p, (reads p).2.valid
  | .timerHandle i => i < c.sender.threads.length

end HeartbeatClient

def clientMachine : Machine HeartbeatClient ClientStep ClientEvent ObjectFault where
  step := HeartbeatClient.step
  Allowed := HeartbeatClient.Allowed

end WebsocketCpp
