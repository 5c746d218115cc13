import WebsocketCpp.Base.Reactor
import WebsocketCpp.Net.Connection

/-!
# A connection on its loop

A `Connection` with the `Reactor` it belongs to. Any thread calls `send`, `forceClose` or `shutdown`
(`net/NetConnection.cpp:133-151, 221-256`): it tests `state_`, and then calls `runInLoop` or, in the
loop thread, the function itself. The loop calls the handler of the socket and executes the tasks, with
everything that other threads do in between (`base/Reactor.cpp:82-213`).
-/

namespace WebsocketCpp

/-- A function that has been bound, with the thread that has done so. -/
structure PostedTask where
  tid : Nat
  task : ConnTask
  deriving DecidableEq, Repr

inductive SharedEvent where
  | loop (e : ReactorEvent PostedTask)
  | conn (e : ConnEvent)
  /-- A call of `send` has found the connection connected. -/
  | send (tid : Nat) (data : List UInt8)
  deriving DecidableEq, Repr

abbrev Shared := Traced SharedEvent ObjectFault

/-- A connection with the descriptor of its socket and its loop. `calls` are the threads inside `send`,
`forceClose` or `shutdown`, up to the call of `runInLoop`. -/
structure SharedConn where
  fd : Nat
  loop : Reactor PostedTask
  conn : Connection
  calls : Nat → Option ConnCall

inductive SharedStep where
  /-- `poll` returns. -/
  | poll (activeList : List Active)
  /-- The next step of `loop`, with what `poll` has reported for the socket and the answers to the `readv`
  or the `write` that the step makes. -/
  | loop (revent : BitVec 32) (read : ReadAnswer) (write : WriteAnswer)
  | send (tid : Nat) (data : List UInt8)
  | forceClose (tid : Nat)
  | shutdown (tid : Nat)
  /-- The next step of a call, with the answer to the `write` it makes. -/
  | proceed (tid : Nat) (write : WriteAnswer)

namespace SharedConn

/-- No thread uses the connection yet. -/
def start (threadId fd : Nat) (conn : Connection) : SharedConn where
  fd := fd
  loop := .new threadId
  conn := conn
  calls := fun _ => none

def setCall (s : SharedConn) (tid : Nat) (call : Option ConnCall) : SharedConn :=
  { s with calls := Function.update s.calls tid call }

@[simp] theorem calls_setCall_self (s : SharedConn) (tid : Nat) (call : Option ConnCall) :
    (s.setCall tid call).calls tid = call := Function.update_self ..

theorem calls_setCall_of_ne (s : SharedConn) {tid tid' : Nat} (h : tid' ≠ tid)
    (call : Option ConnCall) : (s.setCall tid call).calls tid' = s.calls tid' :=
  Function.update_of_ne h ..

@[simp] theorem loop_setCall (s : SharedConn) (tid : Nat) (call : Option ConnCall) :
    (s.setCall tid call).loop = s.loop := rfl

@[simp] theorem conn_setCall (s : SharedConn) (tid : Nat) (call : Option ConnCall) :
    (s.setCall tid call).conn = s.conn := rfl

/-- `Reactor::loop`, where it calls `handEvent` of the connection's handler, or a task. The handler is in
`activeList_` even if it has been deleted since `poll` returned. -/
def loopStep (s : SharedConn) (revent : BitVec 32) (read : ReadAnswer) (write : WriteAnswer) :
    Shared SharedConn := do
  let loop ← Traced.mapOut .loop s.loop.loop
  match s.loop.phase with
  | .dispatching (.socket fd :: _) =>
    if fd = s.fd then do
      Traced.require (s.conn.event ≠ none) .useAfterFree
      pure { s with loop := loop, conn := ← Traced.mapOut .conn (s.conn.handEvent revent read write) }
    else pure { s with loop := loop }
  | .executing (func :: _) =>
    pure { s with loop := loop, conn := ← Traced.mapOut .conn (s.conn.runTask write func.task) }
  | _ => pure { s with loop := loop }

/-- `NetConnection::send` up to the test (`NetConnection.cpp:133-135`). -/
def send (s : SharedConn) (tid : Nat) (data : List UInt8) : Shared SharedConn := do
  let call := s.conn.send data
  if call.isSome then Traced.emit (.send tid data)
  pure (s.setCall tid call)

/-- The rest of a call. In the loop thread `runInLoop` calls the function at once, and so does `send`
without it. -/
def proceed (s : SharedConn) (tid : Nat) (write : WriteAnswer) : Shared SharedConn :=
  match s.calls tid with
  | none => do
    pure { s with loop := ← Traced.mapOut .loop (s.loop.proceed tid) }
  | some .forceClose =>
    pure ({ s with conn.state := .eDisconnected }.setCall tid (some (.runInLoop .handleClose)))
  | some (.runInLoop task) => do
    let loop ← Traced.mapOut .loop (s.loop.runInLoop tid ⟨tid, task⟩)
    let s' := { s with loop := loop }.setCall tid none
    if s.loop.isInLoopThread tid then
      pure { s' with conn := ← Traced.mapOut .conn (s.conn.runTask write task) }
    else pure s'

def step (s : SharedConn) : SharedStep → Shared SharedConn
  | .poll activeList => do
    pure { s with loop := ← Traced.mapOut .loop (s.loop.step (.poll activeList)) }
  | .loop revent read write => s.loopStep revent read write
  | .send tid data => s.send tid data
  | .forceClose tid => pure (s.setCall tid s.conn.forceClose)
  | .shutdown tid => pure (s.setCall tid s.conn.shutdown)
  | .proceed tid write => s.proceed tid write

/-- The thread is in no call and can make one. -/
def CanCall (s : SharedConn) (tid : Nat) : Prop := s.calls tid = none ∧ s.loop.CanCall tid

/-- Which steps can be next. `poll` reports the socket as long as its handler is registered. -/
def Allowed (s : SharedConn) : SharedStep → Prop
  | .poll activeList =>
    s.loop.Allowed (.poll activeList) ∧ (.socket s.fd ∈ activeList → s.conn.event ≠ none)
  | .loop _ _ _ => s.loop.Allowed .loop ∧ s.calls s.loop.threadId = none
  | .send tid _ | .forceClose tid | .shutdown tid => s.CanCall tid
  | .proceed tid _ => s.calls tid ≠ none ∨ s.loop.Allowed (.proceed tid)

end SharedConn

def sharedMachine : Machine SharedConn SharedStep SharedEvent ObjectFault where
  step := SharedConn.step
  Allowed := SharedConn.Allowed

end WebsocketCpp
