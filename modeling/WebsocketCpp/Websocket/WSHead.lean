import Mathlib.Data.List.Basic

/-!
# The frame header

`WSHead` and `OpCode` of `websocket/WSProtocol.h:6-23`. The header is copied to and from
the wire by `memcpy`, so its layout is that of the compiler: bit-fields fill a byte from
the low end, `FIN` being bit 0 of the first byte and `mask` bit 0 of the second.
-/

namespace WebsocketCpp

/-- `WSHead` (`WSProtocol.h:6-13`). -/
structure WSHead where
  FIN : BitVec 1
  RSV : BitVec 3
  Opcode : BitVec 4
  mask : BitVec 1
  PayloadLen : BitVec 7
  deriving DecidableEq, Repr

/-- `OpCode` (`WSProtocol.h:15-23`). -/
inductive OpCode where
  | eContinueFrame
  | eTextFrame
  | eBlobFrame
  | eCloseFrame
  | ePingFrame
  | ePongFrame
  deriving DecidableEq, Repr

/-- The value of an enumerator, as stored in `WSHead.Opcode`. -/
def OpCode.code : OpCode → BitVec 4
  | eContinueFrame => 0x0
  | eTextFrame => 0x1
  | eBlobFrame => 0x2
  | eCloseFrame => 0x8
  | ePingFrame => 0x9
  | ePongFrame => 0xA

namespace WSHead

/-- `memcpy(buff, &header, sizeof(WSHead))`. -/
def toBytes (h : WSHead) : List UInt8 :=
  [UInt8.ofNat (h.FIN.toNat + 2 * h.RSV.toNat + 16 * h.Opcode.toNat),
    UInt8.ofNat (h.mask.toNat + 2 * h.PayloadLen.toNat)]

/-- `memcpy(&header, data, sizeof(WSHead))`. -/
def ofBytes (b0 b1 : UInt8) : WSHead where
  FIN := BitVec.ofNat 1 b0.toNat
  RSV := BitVec.ofNat 3 (b0.toNat / 2)
  Opcode := BitVec.ofNat 4 (b0.toNat / 16)
  mask := BitVec.ofNat 1 b1.toNat
  PayloadLen := BitVec.ofNat 7 (b1.toNat / 2)

@[simp] theorem length_toBytes (h : WSHead) : h.toBytes.length = 2 := rfl

theorem ofBytes_toBytes (h : WSHead) :
    ofBytes (UInt8.ofNat (h.FIN.toNat + 2 * h.RSV.toNat + 16 * h.Opcode.toNat))
      (UInt8.ofNat (h.mask.toNat + 2 * h.PayloadLen.toNat)) = h := by
  obtain ⟨fin, rsv, opcode, mask, payloadLen⟩ := h
  have hfin := fin.isLt
  have hrsv := rsv.isLt
  have hop := opcode.isLt
  have hmask := mask.isLt
  have hlen := payloadLen.isLt
  simp only [ofBytes, UInt8.toNat_ofNat', mk.injEq]
  refine ⟨?_, ?_, ?_, ?_, ?_⟩ <;> apply BitVec.eq_of_toNat_eq <;>
    simp only [BitVec.toNat_ofNat] <;> omega

end WSHead

theorem toBytes_injective : Function.Injective WSHead.toBytes := by
  intro h h' heq
  rw [← WSHead.ofBytes_toBytes h, ← WSHead.ofBytes_toBytes h']
  simp only [WSHead.toBytes, List.cons.injEq, and_true] at heq
  rw [heq.1, heq.2]

end WebsocketCpp
