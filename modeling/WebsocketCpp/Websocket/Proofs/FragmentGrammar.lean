import WebsocketCpp.Websocket.Proofs.EncodeFrames

/-!
# The fragments of a message

Which messages `encodeFrame` (`websocket/WSProtocol.cpp:79-233`) emits as one message on the
wire: `oneMessage_iff`. The others are those whose length is a multiple of `SLICE_SIZE`; the
slice that is the last one then counts as the first, or carries nothing.
-/

namespace WebsocketCpp

/-- The header at the front of an emitted buffer. -/
def headOf (buff : List UInt8) : WSHead := WSHead.ofBytes (buff.getD 0 0) (buff.getD 1 0)

/-- The payload of an emitted buffer: what follows the header, the 16-bit length, if there is
one, and the key. -/
def payloadOf (buff : List UInt8) : List UInt8 :=
  buff.drop (if (headOf buff).PayloadLen.toNat = SHORT_LENGTH then 8 else 6)

/-- The buffers form one message of the given type and length. -/
structure OneMessage (type : OpCode) (len : Nat) (buffs : List (List UInt8)) : Prop where
  final : ∃ init last, buffs = init ++ [last] ∧ (headOf last).FIN = 1 ∧
    ∀ buff ∈ init, (headOf buff).FIN = 0
  opcodes : ∃ first rest, buffs = first :: rest ∧ (headOf first).Opcode = type.code ∧
    ∀ buff ∈ rest, (headOf buff).Opcode = OpCode.eContinueFrame.code
  payloads : ∀ buff ∈ buffs, payloadOf buff ≠ []
  count : SLICE_SIZE ≤ len → buffs.length = (len + (SLICE_SIZE - 1)) / SLICE_SIZE

theorem headOf_wire (f : Frame) : headOf f.wire = f.head := f.head.ofBytes_toBytes

theorem payloadOf_wire (f : Frame) : payloadOf f.wire = f.body := by
  rw [payloadOf, headOf_wire]
  have hwire : f.wire = (f.head.toBytes ++ f.lengthField ++ f.key) ++ f.body := rfl
  rw [hwire]
  apply List.drop_left'
  rw [Frame.lengthField]
  split <;> simp [ushortBytes, f.length_key]

namespace Message

variable (m : Message)

/-- A message whose last slice is a partial one, or which is not sliced. -/
theorem oneMessage_of_lt (h : m.payload.length < SLICE_SIZE) :
    OneMessage m.type m.payload.length m.encode.out := by
  rw [m.encode_eq, m.frames_of_lt h]
  refine ⟨⟨[], _, rfl, ?_, by simp⟩, ⟨_, [], rfl, ?_, by simp⟩, ?_, fun hle => by omega⟩
  · rw [headOf_wire]
    rfl
  · rw [headOf_wire]
    rfl
  · intro buff hbuff
    rw [List.mem_singleton.mp hbuff, payloadOf_wire]
    exact fun hnil => m.nonempty (xorMask_eq_nil.mp hnil)

theorem sliceBody_ne_nil (hlen : SLICE_SIZE ≤ m.payload.length) (hlast : 0 < m.lastlen) {i : Nat}
    (hi : i < m.slice) : m.sliceBody i ≠ [] := by
  have hpos : 0 < m.sliceSize i := by
    unfold sliceSize
    split
    · decide
    · exact hlast
  rw [← List.length_pos_iff, m.length_sliceBody hlen hi]
  exact hpos

theorem oneMessage_of_lastlen_pos (hlen : SLICE_SIZE ≤ m.payload.length) (hlast : 0 < m.lastlen) :
    OneMessage m.type m.payload.length m.encode.out := by
  have hb := m.slice_bounds
  have hl := m.lastlen_lt
  obtain ⟨q, hq⟩ : ∃ q, m.payload.length / SLICE_SIZE = q + 1 :=
    Nat.exists_eq_succ_of_ne_zero (Nat.ne_of_gt (Nat.div_pos hlen (by decide)))
  have hslice : m.slice = q + 1 + 1 := by rw [slice, if_pos hlast, hq]
  rw [m.encode_eq, m.frames_of_le hlen]
  refine ⟨⟨((List.range (q + 1)).map m.sliceFrame).map Frame.wire, (m.sliceFrame (q + 1)).wire,
    ?_, ?_, ?_⟩, ⟨(m.sliceFrame 0).wire,
    (((List.range (q + 1)).map Nat.succ).map m.sliceFrame).map Frame.wire, ?_, ?_, ?_⟩, ?_, ?_⟩
  · rw [hslice, List.range_succ, List.map_append, List.map_append]
    rfl
  · rw [headOf_wire]
    exact if_neg (by omega)
  · simp only [List.map_map, List.mem_map, List.mem_range, Function.comp]
    rintro buff ⟨i, hi, rfl⟩
    rw [headOf_wire]
    exact if_pos (by omega)
  · rw [hslice, List.range_succ_eq_map]
    rfl
  · rw [headOf_wire]
    rfl
  · simp only [List.map_map, List.mem_map, List.mem_range, Function.comp]
    rintro buff ⟨i, hi, rfl⟩
    rw [headOf_wire]
    show (if i + 1 = 0 then m.type.code else OpCode.eContinueFrame.code) = _
    exact if_neg (Nat.succ_ne_zero i)
  · simp only [List.map_map, List.mem_map, List.mem_range, Function.comp]
    rintro buff ⟨i, hi, rfl⟩
    rw [payloadOf_wire]
    exact m.sliceBody_ne_nil hlen hlast hi
  · intro _
    simp only [List.length_map, List.length_range, hslice]
    rw [SLICE_SIZE] at *
    omega

/-- The last slice of a message whose length is a multiple of `SLICE_SIZE`. -/
theorem not_oneMessage_of_dvd (hlen : SLICE_SIZE ≤ m.payload.length) (hlast : m.lastlen = 0) :
    ¬OneMessage m.type m.payload.length m.encode.out := by
  intro hone
  have hpos := m.slice_pos hlen
  obtain ⟨s, hs⟩ : ∃ s, m.slice = s + 1 := Nat.exists_eq_succ_of_ne_zero (Nat.ne_of_gt hpos)
  have hout : m.encode.out =
      ((List.range s).map m.sliceFrame).map Frame.wire ++ [(m.sliceFrame s).wire] := by
    rw [m.encode_eq, m.frames_of_le hlen, hs, List.range_succ, List.map_append, List.map_append]
    rfl
  obtain ⟨init, last, hbuffs, hfin, -⟩ := hone.final
  obtain ⟨-, hlast'⟩ := List.append_inj' (hout.symm.trans hbuffs) rfl
  rw [← List.cons.inj hlast' |>.1, headOf_wire] at hfin
  have hbody := hone.payloads (m.sliceFrame s).wire (by rw [hout]; simp)
  rw [payloadOf_wire] at hbody
  by_cases h0 : s = 0
  · -- the only slice is handled as the first one
    have hzero : (m.sliceFrame s).head.FIN = 0 := if_pos (Or.inl h0)
    rw [hzero] at hfin
    exact absurd hfin (by decide)
  · -- there is nothing left for the last slice
    have hlength : (m.sliceBody s).length = 0 := by
      rw [m.length_sliceBody hlen (by omega), m.sliceSize_last (by omega), hlast]
    exact hbody (List.length_eq_zero_iff.mp hlength)

end Message

/-- What `encodeFrame` emits for a text or blob payload is one message unless the payload has
500 bytes or more and its length is a multiple of 500. -/
theorem oneMessage_iff (m : Message) :
    OneMessage m.type m.payload.length m.encode.out ↔
      ¬(SLICE_SIZE ≤ m.payload.length ∧ SLICE_SIZE ∣ m.payload.length) := by
  rw [Nat.dvd_iff_mod_eq_zero]
  constructor
  · rintro hone ⟨hlen, hmod⟩
    exact m.not_oneMessage_of_dvd hlen hmod hone
  · intro hcond
    by_cases hlen : SLICE_SIZE ≤ m.payload.length
    · exact m.oneMessage_of_lastlen_pos hlen (Nat.pos_of_ne_zero fun h => hcond ⟨hlen, h⟩)
    · exact m.oneMessage_of_lt (Nat.lt_of_not_le hlen)

/-- A text of 500 bytes. -/
def fullSlice : Message :=
  .text (List.replicate 500 97) (List.ne_nil_of_length_pos (by rw [List.length_replicate]; decide))

/-- Its only buffer does not have the FIN bit set. -/
theorem not_oneMessage_fullSlice :
    ¬OneMessage fullSlice.type fullSlice.payload.length fullSlice.encode.out := by
  have hlen : fullSlice.payload.length = SLICE_SIZE := List.length_replicate
  exact fullSlice.not_oneMessage_of_dvd (Nat.le_of_eq hlen.symm)
    (by rw [Message.lastlen, hlen, Nat.mod_self])

end WebsocketCpp
