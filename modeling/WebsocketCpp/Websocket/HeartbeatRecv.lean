import Mathlib.Algebra.Group.Int.Defs
import WebsocketCpp.Base.Timer
import WebsocketCpp.Misc.CircularList
import WebsocketCpp.Misc.Run
import WebsocketCpp.Websocket.Heartbeat

/-!
# The heartbeat of the server

`HeartbeatRecv` (`websocket/Heartbeat.cpp:136-198`) with the clock: the loop of its timer over
`connList_`, which is circular. The clock readings are arguments.
-/

namespace WebsocketCpp

namespace Timestamp

/-- `microsecondsSinceEpoch() / csMicrosecondsPerSecond`. -/
def seconds (t : Timestamp) : Int := t.tdiv csMicrosecondsPerSecond

/-- The second as the `unsigned int` of `ConnHeartStruct` (`Heartbeat.h:90`). -/
def stamp (t : Timestamp) : Nat := (t.seconds % 2 ^ 32).toNat

end Timestamp

/-- What the server's heartbeat does: what `updateConn` sends, and calls of `forceClose`. -/
inductive RecvEvent where
  | serve (e : ServerEvent)
  | forceClose (conn : Nat)
  deriving DecidableEq, Repr

abbrev Recv := Traced RecvEvent Fault

namespace HeartbeatRecv

def new : HeartbeatRecv := ⟨[]⟩

/-- `const int timeout` of `timerCallback`. -/
def timeout : Int := 10 + 5

/-- `now.microsecondsSinceEpoch() / Timestamp::csMicrosecondsPerSecond - it->second > timeout`. -/
def expired (now : Timestamp) (entry : Nat × Nat) : Prop := timeout < now.seconds - (entry.2 : Int)

instance (now : Timestamp) (entry : Nat × Nat) : Decidable (expired now entry) :=
  inferInstanceAs (Decidable (timeout < _))

/-- The loop of `timerCallback` (`Heartbeat.cpp:187-197`) from the position `it` on. -/
def timerLoop (now : Timestamp) (connList : List (Nat × Nat)) (it : Nat) : Recv (List (Nat × Nat)) :=
  if h : it < connList.length then
    if expired now connList[it] then do
      Traced.emit (.forceClose connList[it].1)
      -- `erase` leads to the element that followed
      let rest := connList.eraseIdx it
      timerLoop now rest (succPos rest.length (predPos rest.length it))
    else timerLoop now connList (succPos connList.length it)
  else pure connList
termination_by connList.length - it
decreasing_by
  · have hlength := length_eraseIdx_add_one h
    rw [succPos_predPos (by omega)]
    omega
  · rw [succPos_of_lt h]
    omega

/-- `HeartbeatRecv::timerCallback` (`Heartbeat.cpp:181-198`). -/
def timerCallback (h : HeartbeatRecv) (now : Timestamp) : Recv HeartbeatRecv := do
  pure ⟨← timerLoop now h.connList 0⟩

end HeartbeatRecv

/-! ## Runs -/

inductive RecvStep where
  /-- With the contents of the local header of `encodeFrame`, and the time. -/
  | updateConn (header : WSHead) (conn : Nat) (now : Timestamp) (call : FrameCall)
  | timerCallback (now : Timestamp)

namespace HeartbeatRecv

def step (h : HeartbeatRecv) : RecvStep → Recv HeartbeatRecv
  | .updateConn header conn now call => do
    let (h, _) ← Traced.mapOut .serve (h.updateConn header conn now.stamp call)
    pure h
  | .timerCallback now => h.timerCallback now

/-- `updateConn` reads less than 2^32 seconds, and a message that is as long as its length says. -/
def Allowed (_ : HeartbeatRecv) : RecvStep → Prop
  | .updateConn _ _ now call => 0 ≤ now ∧ now.seconds < 2 ^ 32 ∧ call.len ≤ call.data.length
  | .timerCallback _ => True

end HeartbeatRecv

def recvMachine : Machine HeartbeatRecv RecvStep RecvEvent Fault where
  step := HeartbeatRecv.step
  Allowed := HeartbeatRecv.Allowed

end WebsocketCpp
