import Mathlib.Algebra.Group.Nat.Defs
import WebsocketCpp.Fault
import WebsocketCpp.Misc.Cyclic
import WebsocketCpp.Misc.Traced
import WebsocketCpp.Websocket.WSHead

/-!
# Masking

`computeMask` and `computeUnMask` of `websocket/WSProtocol.cpp:30-72`. Both work in place
with the fixed key `MASK_CODE`; the `printf` tracing around the loops is left out.
-/

namespace WebsocketCpp

/-- `MASK_CODE` (`WSProtocol.h:25`). -/
def MASK_CODE : Nat := 0x80200802

/-- `(MASK_CODE >> 8 * pos) & 0xff`, an element of the table `mask`. -/
def maskByte (pos : Nat) : UInt8 := UInt8.ofNat (MASK_CODE / 2 ^ (8 * pos) % 256)

/-- The four key bytes on the wire, `memcpy(_, &mask, 4)`. -/
def maskBytes : List UInt8 := [maskByte 0, maskByte 1, maskByte 2, maskByte 3]

/-- The loop `data[i] = data[i] ^ mask[i % 4]`. -/
def xorMask (data : List UInt8) : List UInt8 := cyclicMap 4 (fun pos b => b ^^^ maskByte pos) data

/-- The body the two functions share: the first `len` bytes at `data` are masked in place. -/
def maskInPlace {ω : Type} (data : List UInt8) (len : Nat) : Traced ω Fault (List UInt8) := do
  Traced.require (0 < len) .assertion
  Traced.require (len ≤ data.length) .readPastEnd
  pure (xorMask (data.take len) ++ data.drop len)

/-- `computeMask` (`WSProtocol.cpp:30-50`). -/
def computeMask {ω : Type} (data : List UInt8) (len : Nat) : Traced ω Fault (List UInt8) :=
  maskInPlace data len

/-- `computeUnMask` (`WSProtocol.cpp:52-72`). -/
def computeUnMask {ω : Type} (data : List UInt8) (len : Nat) : Traced ω Fault (List UInt8) :=
  maskInPlace data len

@[simp] theorem length_maskBytes : maskBytes.length = 4 := rfl

@[simp] theorem length_xorMask (data : List UInt8) : (xorMask data).length = data.length :=
  length_cyclicMap ..

@[simp] theorem xorMask_eq_nil {data : List UInt8} : xorMask data = [] ↔ data = [] :=
  cyclicMap_eq_nil

@[simp] theorem xorMask_xorMask (data : List UInt8) : xorMask (xorMask data) = data := by
  apply cyclicMap_cyclicMap
  intro pos b
  rw [UInt8.xor_assoc, UInt8.xor_self, UInt8.xor_zero]

theorem take_xorMask (data : List UInt8) (k : Nat) :
    (xorMask data).take k = xorMask (data.take k) := take_cyclicMap ..

theorem drop_xorMask {k : Nat} (h : 4 ∣ k) (data : List UInt8) :
    (xorMask data).drop k = xorMask (data.drop k) := drop_cyclicMap h ..

/-- Masking a buffer that starts with `xs`. -/
theorem maskInPlace_append {ω : Type} {xs : List UInt8} (h : xs ≠ []) (rest : List UInt8) :
    (maskInPlace (xs ++ rest) xs.length : Traced ω Fault (List UInt8)) =
      pure (xorMask xs ++ rest) := by
  have hpos : 0 < xs.length := List.length_pos_iff.mpr h
  simp [maskInPlace, hpos]

/-- Masking nothing fails the assertion `len > 0`. -/
theorem maskInPlace_zero {ω : Type} (data : List UInt8) :
    (maskInPlace data 0 : Traced ω Fault (List UInt8)) = Traced.fail .assertion := rfl

/-- Masking more than there is runs past the end. -/
theorem maskInPlace_short {ω : Type} {data : List UInt8} {len : Nat} (h : data.length < len) :
    (maskInPlace data len : Traced ω Fault (List UInt8)) = Traced.fail .readPastEnd := by
  have hpos : 0 < len := by omega
  simp [maskInPlace, hpos, Nat.not_le.mpr h]

end WebsocketCpp
