import WebsocketCpp.Base.Buffer
import WebsocketCpp.Misc.Traced

/-!
# Connections

`NetConnection` (`net/NetConnection.cpp`): the read path up to the message callback and the
send path. The write buffer is taken as the queue of its readable bytes. What the kernel
answers to a system call is an argument of the function that makes the call.
-/

namespace WebsocketCpp

/-- `NetConnection::NetState` (`NetConnection.h`). -/
inductive NetState where
  | eDisconnected
  | eConnecting
  | eConnected
  deriving DecidableEq, Repr

/-- The values of `errno` after a failed `write` that the code tells apart. -/
inductive Errno where
  | EWOULDBLOCK
  | EPIPE
  | ECONNRESET
  | other
  deriving DecidableEq, Repr

/-- The answer to `write`: a count, or -1 and `errno`. -/
inductive WriteAnswer where
  | count (n : Nat)
  | failed (errno : Errno)
  deriving DecidableEq, Repr

/-- What the system answers while one read is handled: the bytes `readv` delivers, the allocator,
and what new memory for a `WSProtocol` holds. -/
structure SocketRead where
  data : List UInt8
  nonempty : data ≠ []
  alloc : Alloc
  heap : Nat → UInt8

/-- What the send path does to the outside: bytes the kernel has taken, and calls of
`writeCompleteFunc_`. -/
inductive SendEvent where
  | accepted (bytes : List UInt8)
  | writeComplete
  deriving DecidableEq, Repr

abbrev Send := Traced SendEvent Fault

/-- The members of `NetConnection` that the two paths use. `isWriteable` is the write interest
of `event_`, `writeCompleteFunc` whether the callback is set. -/
structure NetConnection where
  state : NetState
  readBuffer : Buffer
  writeBuffer : List UInt8
  isWriteable : Bool
  writeCompleteFunc : Bool

namespace NetConnection

/-- `NetConnection::NetConnection` (`NetConnection.cpp:8-26`). -/
def new (alloc : Alloc) (writeCompleteFunc : Bool) : NetConnection where
  state := .eDisconnected
  readBuffer := .new alloc
  writeBuffer := []
  isWriteable := false
  writeCompleteFunc := writeCompleteFunc

/-- `NetConnection::connEstablished` (`NetConnection.cpp:233-244`). -/
def connEstablished (c : NetConnection) : NetConnection := { c with state := .eConnected }

/-- `NetConnection::handleRead` (`NetConnection.cpp:37-61`) when `readv` delivers something, up
to the call of `msgRecvFunc_` with `&readBuffer_`. -/
def handleRead (c : NetConnection) (r : SocketRead) : Except Fault NetConnection := do
  let readBuffer ← c.readBuffer.reset.readfd r.data r.alloc
  pure { c with readBuffer := readBuffer }

/-- `if (writeCompleteFunc_ != NULL) writeCompleteFunc_(this)`. -/
def writeComplete (c : NetConnection) : Send Unit :=
  if c.writeCompleteFunc then Traced.emit .writeComplete else pure ()

/-- The first half of `sendInReactor` (`NetConnection.cpp:172-201`): `bret`, `nowwrite` and
`remain` after the attempt to write at once. -/
def writeNow (c : NetConnection) (data : List UInt8) (answer : WriteAnswer) :
    Send (Bool × Nat × Nat) :=
  if c.writeBuffer.isEmpty then
    match answer with
    | .count nowwrite => do
      Traced.emit (.accepted (data.take nowwrite))
      let remain := data.length - nowwrite
      if remain = 0 then c.writeComplete
      pure (false, nowwrite, remain)
    | .failed errno =>
      pure (errno ≠ .EWOULDBLOCK ∧ (errno = .EPIPE ∨ errno = .ECONNRESET), 0, 0)
  else pure (false, 0, 0)

/-- `NetConnection::sendInReactor` (`NetConnection.cpp:159-216`). -/
def sendInReactor (c : NetConnection) (data : List UInt8) (answer : WriteAnswer) :
    Send NetConnection :=
  if c.state = .eDisconnected then pure c
  else do
    let (bret, nowwrite, remain) ← c.writeNow data answer
    if bret = false ∧ 0 < remain then
      pure { c with
        writeBuffer := c.writeBuffer ++ (data.drop nowwrite).take remain
        isWriteable := true }
    else pure c

/-- `NetConnection::handleWrite` (`NetConnection.cpp:67-91`). `retrieve` asserts that the kernel
took no more than the buffer holds. -/
def handleWrite (c : NetConnection) (answer : WriteAnswer) : Send NetConnection :=
  match answer with
  | .count writelen =>
    if 0 < writelen then do
      Traced.emit (.accepted (c.writeBuffer.take writelen))
      Traced.require (writelen ≤ c.writeBuffer.length) .assertion
      let c := { c with writeBuffer := c.writeBuffer.drop writelen }
      if c.writeBuffer.isEmpty then do
        let c := { c with isWriteable := false }
        c.writeComplete
        pure c
      else pure c
    else Traced.fail .assertion
  | .failed _ => Traced.fail .assertion

/-- One step of the send path, with the answer to the `write` it makes, if it makes one. -/
inductive SendStep where
  | sendInReactor (data : List UInt8) (answer : WriteAnswer)
  | handleWrite (answer : WriteAnswer)

def SendStep.run (c : NetConnection) : SendStep → Send NetConnection
  | .sendInReactor data answer => c.sendInReactor data answer
  | .handleWrite answer => c.handleWrite answer

/-- A run of the send path. -/
def runSend (c : NetConnection) (steps : List SendStep) : Send NetConnection :=
  steps.foldlM SendStep.run c

end NetConnection

end WebsocketCpp
