import WebsocketCpp.Misc.Region
import WebsocketCpp.Websocket.EncodeFrame

/-!
# The decoder

`WSProtocol::decodeFrame` (`websocket/WSProtocol.cpp:300-418`). The `data` pointer and its
`len` are one list, the bytes received and not yet consumed: advancing the pointer drops
from the list, and `len <= 0` says that nothing is left of it. An access beyond the list is
the fault `readPastEnd`, a `memcpy` beyond `frameBuff_` the fault `writePastBuffer`. Bytes
in front of `data` are never looked at again, so the unmasking in place shows only in what
the callback is given.
-/

namespace WebsocketCpp

/-- `MAX_FRAMESIZE` (`WSProtocol.cpp:11`). -/
def MAX_FRAMESIZE : Nat := 1024 * 1024 * 4

/-- The members of `WSProtocol` (`WSProtocol.h:54-55`): the reassembly buffer of
`MAX_FRAMESIZE` bytes and the number of bytes in use. -/
structure WSProtocol where
  frameBuff : Nat → UInt8
  framePos : Nat

/-- `WSProtocol::WSProtocol` (`WSProtocol.cpp:14-18`); `new` leaves the buffer as it finds
it. -/
def WSProtocol.new (mem : Nat → UInt8) : WSProtocol := ⟨mem, 0⟩

/-- One invocation of the callback, `func(data, len, context)`: the bytes at `data`, as far as
they were received, and `len`. The context is handed through unchanged. -/
structure FrameCall where
  data : List UInt8
  len : Nat
  deriving DecidableEq, Repr

/-- A callback that is given exactly the bytes `data`. -/
def FrameCall.of (data : List UInt8) : FrameCall := ⟨data, data.length⟩

@[simp] theorem FrameCall.data_of (data : List UInt8) : (FrameCall.of data).data = data := rfl
@[simp] theorem FrameCall.len_of (data : List UInt8) : (FrameCall.of data).len = data.length := rfl

/-- Executions of the decoder: callback invocations, then a value or a fault. -/
abbrev Decode := Traced FrameCall Fault

/-- `memcpy(&header, data, sizeof(WSHead))`. -/
def readHead : List UInt8 → Decode WSHead
  | b0 :: b1 :: _ => pure (WSHead.ofBytes b0 b1)
  | _ => Traced.fail .readPastEnd

/-- `*(unsigned short*)data`. -/
def readUShort : List UInt8 → Decode Nat
  | b0 :: b1 :: _ => pure (b0.toNat + 256 * b1.toNat)
  | _ => Traced.fail .readPastEnd

/-- `*(unsigned int*)data`. -/
def readUInt : List UInt8 → Decode Nat
  | b0 :: b1 :: b2 :: b3 :: _ =>
      pure (b0.toNat + 256 * b1.toNat + 256 ^ 2 * b2.toNat + 256 ^ 3 * b3.toNat)
  | _ => Traced.fail .readPastEnd

/-- `payl`, `payll` and the advanced `data` of a frame with `FIN == 1`; the two branches on the
opcode open with this same code (`WSProtocol.cpp:316-331` and `352-367`). A length code of
127 matches neither test: `payl` stays `NULL`, `payll` stays 0 and nothing is consumed. -/
def locatePayload (header : WSHead) (data : List UInt8) :
    Decode (List UInt8 × Nat × List UInt8) :=
  if header.PayloadLen.toNat < SHORT_LENGTH then
    let payll := header.PayloadLen.toNat
    pure (data.drop (2 + 4), payll, data.drop (payll + 2 + 4))
  else if header.PayloadLen.toNat = SHORT_LENGTH then do
    let payll ← readUShort (data.drop 2)
    pure (data.drop (2 + 2 + 4), payll, data.drop (payll + 2 + 2 + 4))
  else
    pure ([], 0, data)

/-- `if (header.mask == 1) computeUnMask(payl, payll)`. -/
def unmaskPayload (header : WSHead) (payl : List UInt8) (payll : Nat) : Decode (List UInt8) :=
  if header.mask = 1 then computeUnMask payl payll else pure payl

/-- `memcpy(frameBuff_ + framePos_, payl, payll); framePos_ += payll`. -/
def WSProtocol.copyPayload (p : WSProtocol) (payl : List UInt8) (payll : Nat) :
    Decode WSProtocol := do
  Traced.require (payll ≤ payl.length) .readPastEnd
  Traced.require (p.framePos + payll ≤ MAX_FRAMESIZE) .writePastBuffer
  pure { frameBuff := Region.store p.frameBuff p.framePos (payl.take payll)
         framePos := p.framePos + payll }

/-- `memset(frameBuff_, 0, MAX_FRAMESIZE); framePos_ = 0`. -/
def WSProtocol.clear (_ : WSProtocol) : WSProtocol := ⟨fun _ => 0, 0⟩

/-- `frameBuff_[0, framePos_)`. -/
def WSProtocol.reassembled (p : WSProtocol) : List UInt8 := Region.load p.frameBuff 0 p.framePos

/-- `if (len <= 0) break`: the data of the next iteration, if there is one. -/
def remaining (rest : List UInt8) : Option (List UInt8) :=
  if rest.isEmpty then none else some rest

/-- One iteration of the loop in `decodeFrame` (`WSProtocol.cpp:306-414`). -/
def decodeIter (p : WSProtocol) (data : List UInt8) :
    Decode (WSProtocol × Option (List UInt8)) := do
  let header ← readHead data
  if header.FIN = 1 then
    let (payl, payll, rest) ← locatePayload header data
    if header.Opcode = OpCode.eContinueFrame.code then
      let payl ← unmaskPayload header payl payll
      let p ← p.copyPayload payl payll
      Traced.emit ⟨p.reassembled, p.framePos⟩
      pure (p, remaining rest)
    else
      let payl ← unmaskPayload header payl payll
      Traced.emit ⟨payl.take payll, payll⟩
      pure (p, remaining rest)
  else
    Traced.require (header.PayloadLen.toNat = SHORT_LENGTH) .assertion
    let p :=
      if header.Opcode = OpCode.eTextFrame.code ∨ header.Opcode = OpCode.eBlobFrame.code then
        p.clear
      else p
    let payllen ← readUShort (data.drop 2)
    let _mask ← readUInt (data.drop (2 + 2))
    let payl ← unmaskPayload header (data.drop (2 + 2 + 4)) payllen
    let p ← p.copyPayload payl payllen
    pure (p, remaining (data.drop (payllen + 2 + 2 + 4)))

/-- The `do … while (true)` loop, for at most the given number of iterations. -/
def decodeLoop : Nat → WSProtocol → List UInt8 → Decode WSProtocol
  | 0, _, _ => Traced.fail .running
  | n + 1, p, data => do
    let (p, next) ← decodeIter p data
    match next with
    | none => pure p
    | some rest => decodeLoop n p rest

/-- `WSProtocol::decodeFrame` (`WSProtocol.cpp:300-418`). An iteration that consumes anything
consumes six bytes, so a loop that goes beyond one iteration per byte never ends. -/
def decodeFrame (p : WSProtocol) (data : List UInt8) : Decode WSProtocol := do
  Traced.require (data.length < MAX_FRAMESIZE) .assertion
  decodeLoop (data.length + 1) p data

/-- Consecutive calls on one object. -/
def decodeCalls (p : WSProtocol) (calls : List (List UInt8)) : Decode WSProtocol :=
  calls.foldlM decodeFrame p

end WebsocketCpp
