import WebsocketCpp.Websocket.Message

/-!
# The encoder emits the frames of a message

`encode_eq`: the buffers passed to the callback are the bytes of `Message.frames`, whatever
the local header held on entry. `fragment_sliceFrame` and `frames_fragment` then say which
part of the payload each frame carries once it is unmasked on its own.
-/

namespace WebsocketCpp

theorem computeMask_all {ω : Type} {payload : List UInt8} (h : payload ≠ []) :
    (computeMask payload payload.length : Traced ω Fault (List UInt8)) =
      pure (xorMask payload) := by
  have happ := maskInPlace_append (ω := ω) h []
  rw [List.append_nil, List.append_nil] at happ
  exact happ

/-! ## Layouts -/

theorem wire_dataFrame_short {fin : BitVec 1} {op : BitVec 4} {body : List UInt8}
    (h : body.length < 2 ^ 16) (hs : body.length < SHORT_LENGTH) :
    (dataFrame fin op body h).wire =
      shortLayout ⟨fin, 0, op, 1, BitVec.ofNat 7 body.length⟩ body := by
  have hmin : min body.length SHORT_LENGTH = body.length := by omega
  have hcode : (BitVec.ofNat 7 body.length).toNat ≠ SHORT_LENGTH := by
    rw [BitVec.toNat_ofNat]
    rw [SHORT_LENGTH] at *
    omega
  have hhead : (dataFrame fin op body h).head = ⟨fin, 0, op, 1, BitVec.ofNat 7 body.length⟩ := by
    show (⟨fin, 0, op, 1, BitVec.ofNat 7 (min body.length SHORT_LENGTH)⟩ : WSHead) = _
    rw [hmin]
  rw [Frame.wire, Frame.lengthField, hhead, if_neg hcode, List.append_nil]
  rfl

theorem wire_dataFrame_long {fin : BitVec 1} {op : BitVec 4} {body : List UInt8}
    (h : body.length < 2 ^ 16) (hl : SHORT_LENGTH ≤ body.length) :
    (dataFrame fin op body h).wire =
      longLayout ⟨fin, 0, op, 1, BitVec.ofNat 7 SHORT_LENGTH⟩ body.length body := by
  have hmin : min body.length SHORT_LENGTH = SHORT_LENGTH := by omega
  have hlen : (BitVec.ofNat 7 SHORT_LENGTH).toNat = SHORT_LENGTH := by decide
  have hhead : (dataFrame fin op body h).head = ⟨fin, 0, op, 1, BitVec.ofNat 7 SHORT_LENGTH⟩ := by
    show (⟨fin, 0, op, 1, BitVec.ofNat 7 (min body.length SHORT_LENGTH)⟩ : WSHead) = _
    rw [hmin]
  rw [Frame.wire, Frame.lengthField, hhead, if_pos hlen]
  rfl

namespace Message

variable (m : Message)

/-- Where the slices lie in the payload. -/
theorem slice_bounds :
    SLICE_SIZE * (m.payload.length / SLICE_SIZE) + m.lastlen = m.payload.length :=
  Nat.div_add_mod ..

theorem slice_pos (h : SLICE_SIZE ≤ m.payload.length) : 0 < m.slice := by
  have hdiv : 0 < m.payload.length / SLICE_SIZE := Nat.div_pos h (by decide)
  unfold slice
  split <;> omega

theorem sliceSize_full {i : Nat} (h : i = 0 ∨ i + 1 < m.slice) : m.sliceSize i = SLICE_SIZE :=
  if_pos h

theorem sliceSize_last {i : Nat} (h : ¬(i = 0 ∨ i + 1 < m.slice)) : m.sliceSize i = m.lastlen :=
  if_neg h

theorem sliceStart_full {i : Nat} (h : i = 0 ∨ i + 1 < m.slice) :
    m.sliceStart i = i * SLICE_SIZE := if_pos (h.imp_right Or.inl)

theorem sliceStart_le (i : Nat) : m.sliceStart i ≤ i * SLICE_SIZE := by
  unfold sliceStart
  split
  · exact Nat.le_refl _
  · exact Nat.mul_le_mul_right _ (Nat.sub_le ..)

/-- Every slice lies in the payload. -/
theorem sliceStart_add_sliceSize_le (hlen : SLICE_SIZE ≤ m.payload.length) {i : Nat}
    (hi : i < m.slice) : m.sliceStart i + m.sliceSize i ≤ m.payload.length := by
  have hb := m.slice_bounds
  have hstart := m.sliceStart_le i
  have hslice : m.slice ≤ m.payload.length / SLICE_SIZE + 1 := by unfold slice; split <;> omega
  by_cases hfull : i = 0 ∨ i + 1 < m.slice
  · rw [m.sliceSize_full hfull]
    rw [SLICE_SIZE] at *
    omega
  · rw [m.sliceSize_last hfull]
    rw [SLICE_SIZE] at *
    omega

theorem length_sliceBody (hlen : SLICE_SIZE ≤ m.payload.length) {i : Nat} (hi : i < m.slice) :
    (m.sliceBody i).length = m.sliceSize i := by
  apply length_slicePayload
  rw [length_xorMask]
  exact m.sliceStart_add_sliceSize_le hlen hi

/-! ## The loop -/

/-- The loop over the slices emits the frames of the slices that are left. -/
theorem encodeSlices_eq (hlen : SLICE_SIZE ≤ m.payload.length) (n i : Nat) (header : WSHead)
    (hn : i + n = m.slice) (hrsv : header.RSV = 0) (hmask : header.mask = 1)
    (hop : i = 0 → header.Opcode = m.type.code) :
    encodeSlices (xorMask m.payload) m.slice m.lastlen n i header =
      ⟨((List.range' i n).map m.sliceFrame).map Frame.wire, .ok ()⟩ := by
  induction n generalizing i header with
  | zero => rfl
  | succ n ih =>
      rw [encodeSlices, List.range'_succ, List.map_cons, List.map_cons]
      have hbody := m.length_sliceBody hlen (show i < m.slice by omega)
      by_cases hfull : i = 0 ∨ i + 1 < m.slice
      · -- a full slice is emitted and the loop goes on
        rw [m.sliceSize_full hfull] at hbody
        have hwire : (m.sliceFrame i).wire = longLayout
            ⟨0, 0, if i = 0 then m.type.code else OpCode.eContinueFrame.code, 1,
              BitVec.ofNat 7 SHORT_LENGTH⟩
            SLICE_SIZE (slicePayload (xorMask m.payload) (i * SLICE_SIZE) SLICE_SIZE) := by
          rw [sliceFrame, if_pos hfull, wire_dataFrame_long _ (by rw [hbody]; decide), hbody,
            sliceBody, m.sliceStart_full hfull, m.sliceSize_full hfull]
        by_cases hi : i = 0
        · rw [if_pos hi]
          dsimp only
          rw [ih (i + 1) _ (by omega) (by exact hrsv) (by exact hmask) (by omega),
            Traced.emit_bind, hwire, if_pos hi, hrsv, hmask, hop hi]
        · rw [if_neg hi, if_pos (by omega)]
          dsimp only
          rw [ih (i + 1) _ (by omega) (by exact hrsv) (by exact hmask) (by omega),
            Traced.emit_bind, hwire, if_neg hi, hrsv, hmask]
      · -- the last slice
        obtain rfl : n = 0 := by omega
        have hi : i ≠ 0 := by omega
        rw [m.sliceSize_last hfull] at hbody
        rw [if_neg hi, if_neg (by omega)]
        dsimp only
        by_cases hs : m.lastlen < SHORT_LENGTH
        · have hwire : (m.sliceFrame i).wire = shortLayout
              ⟨1, 0, OpCode.eContinueFrame.code, 1, BitVec.ofNat 7 m.lastlen⟩
              (slicePayload (xorMask m.payload) ((i - 1) * SLICE_SIZE) m.lastlen) := by
            rw [sliceFrame, if_neg hfull, if_neg hi,
              wire_dataFrame_short _ (by rw [hbody]; exact hs), hbody, sliceBody, sliceStart,
              if_neg (by omega), m.sliceSize_last hfull]
          rw [if_pos (show m.lastlen < 126 from hs), hwire, hrsv, hmask]
          rfl
        · have hwire : (m.sliceFrame i).wire = longLayout
              ⟨1, 0, OpCode.eContinueFrame.code, 1, BitVec.ofNat 7 SHORT_LENGTH⟩ m.lastlen
              (slicePayload (xorMask m.payload) (i * SLICE_SIZE) m.lastlen) := by
            rw [sliceFrame, if_neg hfull, if_neg hi,
              wire_dataFrame_long _ (by rw [hbody]; exact Nat.le_of_not_lt hs), hbody, sliceBody,
              sliceStart, if_pos (by omega), m.sliceSize_last hfull]
          rw [if_neg (show ¬m.lastlen < 126 from hs), hwire, hrsv, hmask]
          rfl

/-- The buffers of a message are its frames, and its payload buffer is left masked. -/
theorem encode_eq : m.encode = ⟨m.frames.map Frame.wire, .ok (xorMask m.payload)⟩ := by
  have hmask : (computeMask m.payload m.payload.length : Traced (List UInt8) Fault _) =
      pure (xorMask m.payload) := computeMask_all m.nonempty
  have hdata : m.encode =
      (let header := { m.header with FIN := 0, RSV := 0, mask := 1, Opcode := m.type.code }
      if m.payload.length < SHORT_LENGTH then do
        let payload ← computeMask m.payload m.payload.length
        Traced.emit (shortLayout
          { header with FIN := 1, PayloadLen := BitVec.ofNat 7 m.payload.length } payload)
        pure payload
      else if m.payload.length < SLICE_SIZE then do
        let payload ← computeMask m.payload m.payload.length
        Traced.emit (longLayout
          { header with FIN := 1, PayloadLen := BitVec.ofNat 7 SHORT_LENGTH }
          m.payload.length payload)
        pure payload
      else do
        let payload ← computeMask m.payload m.payload.length
        encodeSlices payload m.slice m.lastlen m.slice 0 header
        pure payload) := by
    rcases m.isData with h | h <;> simp only [encode, encodeFrame, h] <;> rfl
  rw [hdata, frames]
  dsimp only
  by_cases hlong : m.payload.length < SLICE_SIZE
  · rw [dif_pos hlong]
    by_cases hshort : m.payload.length < SHORT_LENGTH
    · rw [if_pos hshort, hmask, pure_bind, Traced.emit_bind, List.map_singleton,
        wire_dataFrame_short _ (by rwa [length_xorMask]), length_xorMask]
      rfl
    · rw [if_neg hshort, if_pos hlong, hmask, pure_bind, Traced.emit_bind, List.map_singleton,
        wire_dataFrame_long _ (by rw [length_xorMask]; exact Nat.le_of_not_lt hshort),
        length_xorMask]
      rfl
  · have hlen : SLICE_SIZE ≤ m.payload.length := Nat.le_of_not_lt hlong
    have hshort : ¬m.payload.length < SHORT_LENGTH :=
      fun h => hlong (Nat.lt_trans h (by decide))
    rw [dif_neg hlong, if_neg hshort, if_neg hlong, hmask, pure_bind,
      m.encodeSlices_eq hlen m.slice 0 _ (Nat.zero_add _) rfl rfl (fun _ => rfl), Traced.mk_bind,
      List.range_eq_range']
    simp

/-! ## What the frames carry -/

theorem frames_of_lt (h : m.payload.length < SLICE_SIZE) :
    m.frames = [dataFrame 1 m.type.code (xorMask m.payload) (m.length_xorMask_lt h)] :=
  dif_pos h

theorem frames_of_le (h : SLICE_SIZE ≤ m.payload.length) :
    m.frames = (List.range m.slice).map m.sliceFrame :=
  dif_neg (Nat.not_lt.mpr h)

/-- The frames of a sliced message are its slices by number. -/
theorem eq_sliceFrame_of_getElem? (h : SLICE_SIZE ≤ m.payload.length) {i : Nat} {f : Frame}
    (hf : m.frames[i]? = some f) : i < m.slice ∧ f = m.sliceFrame i := by
  rw [m.frames_of_le h, List.getElem?_map, Option.map_eq_some_iff] at hf
  rcases hf with ⟨j, hj, rfl⟩
  rcases List.getElem?_eq_some_iff.mp hj with ⟨hi, rfl⟩
  rw [List.length_range] at hi
  rw [List.getElem_range]
  exact ⟨hi, rfl⟩

theorem four_dvd_sliceStart (i : Nat) : 4 ∣ m.sliceStart i := by
  have hslice : 4 ∣ SLICE_SIZE := by decide
  unfold sliceStart
  split <;> exact Nat.dvd_trans hslice (Nat.dvd_mul_left ..)

/-- Slices start at multiples of four, so a slice of the masked payload unmasks to the slice of
the payload. -/
theorem payload_sliceFrame (i : Nat) :
    (m.sliceFrame i).payload = slicePayload m.payload (m.sliceStart i) (m.sliceSize i) := by
  have hmask : (m.sliceFrame i).payload = xorMask (m.sliceBody i) := if_pos rfl
  rw [hmask, sliceBody, slicePayload, slicePayload, ← take_xorMask,
    ← drop_xorMask (m.four_dvd_sliceStart i), xorMask_xorMask]

/-- The frame of a message that is not sliced. -/
theorem fragment_dataFrame (h : (xorMask m.payload).length < 2 ^ 16) :
    (dataFrame 1 m.type.code (xorMask m.payload) h).fragment = .whole m.payload := by
  have hop : m.type.code ≠ OpCode.eContinueFrame.code := by
    rcases m.isData with htype | htype <;> rw [htype] <;> decide
  have hpayload : (dataFrame 1 m.type.code (xorMask m.payload) h).payload = m.payload :=
    (if_pos rfl).trans (xorMask_xorMask _)
  have hfrag := Frame.fragment_whole (f := dataFrame 1 m.type.code (xorMask m.payload) h) rfl hop
  rwa [hpayload] at hfrag

theorem fragment_sliceFrame_zero :
    (m.sliceFrame 0).fragment = .first (m.payload.take SLICE_SIZE) := by
  have hop : m.type.code = OpCode.eTextFrame.code ∨ m.type.code = OpCode.eBlobFrame.code :=
    m.isData.imp (congrArg OpCode.code) (congrArg OpCode.code)
  have hpayload := m.payload_sliceFrame 0
  rw [m.sliceStart_full (.inl rfl), m.sliceSize_full (.inl rfl), slicePayload, Nat.zero_mul,
    List.drop_zero] at hpayload
  rw [← hpayload]
  exact Frame.fragment_first (by rw [show (m.sliceFrame 0).head.FIN = 0 from rfl]; decide) hop

theorem fragment_sliceFrame_middle {i : Nat} (hi : i ≠ 0) (h : i + 1 < m.slice) :
    (m.sliceFrame i).fragment =
      .middle (slicePayload m.payload (i * SLICE_SIZE) SLICE_SIZE) := by
  have hfin : (m.sliceFrame i).head.FIN = 0 := if_pos (.inr h)
  have hop : (m.sliceFrame i).head.Opcode = OpCode.eContinueFrame.code := if_neg hi
  have hpayload := m.payload_sliceFrame i
  rw [m.sliceStart_full (.inr h), m.sliceSize_full (.inr h)] at hpayload
  rw [← hpayload]
  exact Frame.fragment_middle (by rw [hfin]; decide) (by rw [hop]; decide)

theorem fragment_sliceFrame_last {i : Nat} (hi : i ≠ 0) (h : m.slice ≤ i + 1) :
    (m.sliceFrame i).fragment = .last (slicePayload m.payload (m.sliceStart i) m.lastlen) := by
  have hfin : (m.sliceFrame i).head.FIN = 1 := if_neg (by omega)
  have hop : (m.sliceFrame i).head.Opcode = OpCode.eContinueFrame.code := if_neg hi
  rw [← m.sliceSize_last (i := i) (by omega), ← m.payload_sliceFrame]
  exact Frame.fragment_last hfin hop

/-- A slice with FIN == 0 has the 16-bit length. -/
theorem payloadLen_sliceFrame (hlen : SLICE_SIZE ≤ m.payload.length) {i : Nat} (hi : i < m.slice)
    (hfin : (m.sliceFrame i).head.FIN ≠ 1) :
    (m.sliceFrame i).head.PayloadLen.toNat = SHORT_LENGTH := by
  have hbody := m.length_sliceBody hlen hi
  have hfull : i = 0 ∨ i + 1 < m.slice := by
    by_contra h
    exact hfin (if_neg h)
  rw [m.sliceSize_full hfull] at hbody
  have hcode : (m.sliceFrame i).head.PayloadLen =
      BitVec.ofNat 7 (min (m.sliceBody i).length SHORT_LENGTH) := rfl
  rw [hcode, hbody]
  decide

theorem accepted_sliceFrame (hlen : SLICE_SIZE ≤ m.payload.length) {i : Nat} (hi : i < m.slice)
    (hpos : 0 < m.sliceSize i) : (m.sliceFrame i).Accepted := by
  refine ⟨m.payloadLen_sliceFrame hlen hi, ?_⟩
  intro _ hnil
  have hbody := m.length_sliceBody hlen hi
  have hnil : (m.sliceBody i).length = 0 := congrArg List.length hnil
  omega

/-- A slice that is empty is not. -/
theorem not_accepted_sliceFrame (hlen : SLICE_SIZE ≤ m.payload.length) {i : Nat} (hi : i < m.slice)
    (hzero : m.sliceSize i = 0) : ¬(m.sliceFrame i).Accepted := by
  intro ha
  have hbody := m.length_sliceBody hlen hi
  rw [hzero] at hbody
  exact ha.2 rfl (List.length_eq_zero_iff.mp hbody)

/-- The frame of a message that is not sliced. -/
theorem accepted_dataFrame (h : (xorMask m.payload).length < 2 ^ 16) :
    (dataFrame 1 m.type.code (xorMask m.payload) h).Accepted :=
  ⟨fun hfin => absurd rfl hfin, fun _ hnil => m.nonempty (xorMask_eq_nil.mp hnil)⟩

/-- All frames are masked. -/
theorem mask_frames {f : Frame} (hf : f ∈ m.frames) : f.head.mask = 1 := by
  by_cases hlen : m.payload.length < SLICE_SIZE
  · rw [m.frames_of_lt hlen] at hf
    rw [List.mem_singleton.mp hf]
    rfl
  · rw [m.frames_of_le (Nat.le_of_not_lt hlen)] at hf
    obtain ⟨i, -, rfl⟩ := List.mem_map.mp hf
    rfl

end Message

/-- What is sent for a sequence of messages is the bytes of their frames. -/
theorem sent_eq (msgs : List Message) : sent msgs = wires (framesOf msgs) := by
  induction msgs with
  | nil => rfl
  | cons m ms ih =>
      simp only [sent, framesOf, List.flatMap_cons, List.flatten_append, wires_append] at ih ⊢
      rw [ih, m.encode_eq]
      rfl

theorem mask_framesOf {msgs : List Message} {f : Frame} (hf : f ∈ framesOf msgs) :
    f.head.mask = 1 := by
  obtain ⟨m, -, hm⟩ := List.mem_flatMap.mp hf
  exact m.mask_frames hm

end WebsocketCpp
