import WebsocketCpp.Websocket.Frame

/-!
# The decoder refines `receive`

One iteration of the loop in `decodeFrame` on data that starts with a complete frame does
what `receive` says, over the bytes held in `frameBuff_[0, framePos_)`, and goes on with the
data behind the frame (`decodeIter_wire`). Whole calls and sequences of calls follow by
induction (`decodeFrame_wires`, `decodeCalls_wires`). Every iteration, on any data, finds a payload,
unmasks it and delivers it (`decodeIter_eq`).
-/

namespace WebsocketCpp

open Traced (Sim)

/-! ## Reading a frame -/

theorem readHead_wire (f : Frame) (rest : List UInt8) :
    readHead (f.wire ++ rest) = pure f.head := by
  simp only [Frame.wire, WSHead.toBytes, List.cons_append, List.append_assoc, readHead,
    WSHead.ofBytes_toBytes]

theorem readUShort_ushortBytes {n : Nat} (h : n < 2 ^ 16) (rest : List UInt8) :
    readUShort (ushortBytes n ++ rest) = pure n := by
  simp only [ushortBytes, List.cons_append, readUShort, UInt8.toNat_ofNat']
  congr 1
  omega

theorem drop_lengthField (f : Frame) (rest : List UInt8) :
    (f.wire ++ rest).drop 2 = f.lengthField ++ (f.key ++ (f.body ++ rest)) := by
  simp [Frame.wire, WSHead.toBytes]

theorem drop_body (f : Frame) (rest : List UInt8) :
    (f.wire ++ rest).drop (6 + f.lengthField.length) = f.body ++ rest := by
  have hw : f.wire ++ rest =
      (f.head.toBytes ++ f.lengthField ++ f.key) ++ (f.body ++ rest) := by
    simp [Frame.wire]
  rw [hw, List.drop_left']
  simp [f.length_key]; omega

theorem drop_wire (f : Frame) (rest : List UInt8) :
    (f.wire ++ rest).drop (f.body.length + (6 + f.lengthField.length)) = rest := by
  rw [List.drop_left']
  rw [f.length_wire]; omega

/-- Of a complete frame the decoder finds the payload, its length and what follows. -/
theorem locatePayload_wire (f : Frame) (rest : List UInt8) :
    locatePayload f.head (f.wire ++ rest) = pure (f.body ++ rest, f.body.length, rest) := by
  have hbody := drop_body f rest
  have hrest := drop_wire f rest
  rcases Nat.lt_or_eq_of_le f.payloadLen_le with hlt | heq
  · have hfield : f.lengthField = [] := by simp [Frame.lengthField, Nat.ne_of_lt hlt]
    rw [hfield, List.length_nil] at hbody hrest
    rw [locatePayload, if_pos hlt, ← f.length_body hlt]
    change pure ((f.wire ++ rest).drop 6, _, (f.wire ++ rest).drop (f.body.length + 6)) = _
    rw [show (f.wire ++ rest).drop 6 = f.body ++ rest from hbody,
      show (f.wire ++ rest).drop (f.body.length + 6) = rest from hrest]
  · have hfield : f.lengthField = ushortBytes f.body.length := by simp [Frame.lengthField, heq]
    rw [hfield] at hbody hrest
    have hread : readUShort ((f.wire ++ rest).drop 2) = pure f.body.length := by
      rw [drop_lengthField, hfield]
      exact readUShort_ushortBytes f.length_body_lt _
    rw [locatePayload, if_neg (by omega), if_pos heq, hread, pure_bind]
    change pure ((f.wire ++ rest).drop 8, _, (f.wire ++ rest).drop (f.body.length + 8)) = _
    rw [show (f.wire ++ rest).drop 8 = f.body ++ rest from hbody,
      show (f.wire ++ rest).drop (f.body.length + 8) = rest from hrest]

theorem readUInt_key (f : Frame) (rest : List UInt8) :
    ∃ mask, readUInt (f.key ++ rest) = pure mask := by
  have hk := f.length_key
  match f.key, hk with
  | [b0, b1, b2, b3], _ => exact ⟨_, rfl⟩

/-- Unmasking succeeds unless there is a mask bit and nothing to unmask. -/
theorem unmaskPayload_body (f : Frame) (rest : List UInt8)
    (h : f.head.mask = 1 → f.body ≠ []) :
    unmaskPayload f.head (f.body ++ rest) f.body.length = pure (f.payload ++ rest) := by
  by_cases hm : f.head.mask = 1
  · simp only [unmaskPayload, Frame.payload, if_pos hm]
    exact maskInPlace_append (h hm) rest
  · simp only [unmaskPayload, Frame.payload, if_neg hm]

theorem unmaskPayload_empty (f : Frame) (data : List UInt8) (hm : f.head.mask = 1)
    (hb : f.body = []) : unmaskPayload f.head data f.body.length = Traced.fail .assertion := by
  simp only [unmaskPayload, if_pos hm, hb, List.length_nil]
  exact maskInPlace_zero data

/-! ## The reassembly buffer -/

@[simp] theorem length_reassembled (p : WSProtocol) : p.reassembled.length = p.framePos :=
  Region.length_load ..

@[simp] theorem reassembled_clear (p : WSProtocol) : p.clear.reassembled = [] := rfl

@[simp] theorem framePos_clear (p : WSProtocol) : p.clear.framePos = 0 := rfl

@[simp] theorem reassembled_new (mem : Nat → UInt8) : (WSProtocol.new mem).reassembled = [] := rfl

/-- Copying a payload that fits appends it to what is reassembled. -/
theorem copyPayload_fits (p : WSProtocol) (payl rest : List UInt8)
    (h : p.framePos + payl.length ≤ MAX_FRAMESIZE) :
    ∃ q, p.copyPayload (payl ++ rest) payl.length = pure q ∧
      q.reassembled = p.reassembled ++ payl ∧ q.framePos = p.framePos + payl.length := by
  have htake : (payl ++ rest).take payl.length = payl := List.take_left' rfl
  refine ⟨⟨Region.store p.frameBuff p.framePos payl, p.framePos + payl.length⟩, ?_, ?_, rfl⟩
  · rw [WSProtocol.copyPayload, Traced.require_true (by simp), pure_bind, Traced.require_true h,
      pure_bind, htake]
  · have happ := Region.load_store_append p.frameBuff 0 p.framePos payl
    simpa [WSProtocol.reassembled] using happ

theorem copyPayload_overflow (p : WSProtocol) (payl rest : List UInt8)
    (h : ¬p.framePos + payl.length ≤ MAX_FRAMESIZE) :
    p.copyPayload (payl ++ rest) payl.length = Traced.fail .writePastBuffer := by
  rw [WSProtocol.copyPayload, Traced.require_true (by simp), pure_bind, Traced.require_false h,
    Traced.fail_bind]

/-! ## One iteration -/

/-- Where `decodeFrame` finds the payload of the frame at the front, with the header and the length, and
the data behind it. -/
def payloadSection (data : List UInt8) : Decode (WSHead × List UInt8 × Nat × List UInt8) := do
  let header ← readHead data
  if header.FIN = 1 then
    let (payl, payll, rest) ← locatePayload header data
    pure (header, payl, payll, rest)
  else
    Traced.require (header.PayloadLen.toNat = SHORT_LENGTH) .assertion
    let payllen ← readUShort (data.drop 2)
    let _mask ← readUInt (data.drop (2 + 2))
    pure (header, data.drop (2 + 2 + 4), payllen, data.drop (payllen + 2 + 2 + 4))

/-- What is done with the payload once it is unmasked. -/
def deliver (p : WSProtocol) (header : WSHead) (payl : List UInt8) (payll : Nat) :
    Decode WSProtocol :=
  if header.FIN = 1 then
    if header.Opcode = OpCode.eContinueFrame.code then do
      let p ← p.copyPayload payl payll
      Traced.emit ⟨p.reassembled, p.framePos⟩
      pure p
    else do
      Traced.emit ⟨payl.take payll, payll⟩
      pure p
  else if header.Opcode = OpCode.eTextFrame.code ∨ header.Opcode = OpCode.eBlobFrame.code then
    p.clear.copyPayload payl payll
  else p.copyPayload payl payll

/-- What an iteration does once it has found the payload: it is unmasked on its own and delivered. -/
def finishFrame (p : WSProtocol) :
    WSHead × List UInt8 × Nat × List UInt8 → Decode (WSProtocol × Option (List UInt8))
  | (header, payl, payll, rest) => do
    let payl ← unmaskPayload header payl payll
    let p ← deliver p header payl payll
    pure (p, remaining rest)

theorem decodeIter_eq (p : WSProtocol) (data : List UInt8) :
    decodeIter p data = payloadSection data >>= finishFrame p := by
  rw [decodeIter, payloadSection, bind_assoc]
  apply bind_congr
  intro header
  by_cases hfin : header.FIN = 1
  · simp only [if_pos hfin, bind_assoc, pure_bind, finishFrame, deliver]
    apply bind_congr
    rintro ⟨payl, payll, rest⟩
    split <;> simp only [bind_assoc, pure_bind]
  · simp only [if_neg hfin, bind_assoc, pure_bind, finishFrame, deliver]
    split <;> rfl

/-- A fragment is only looked at if it has a 16-bit length. -/
theorem payloadSection_wire {f : Frame} (h : f.head.FIN ≠ 1 → f.head.PayloadLen.toNat = SHORT_LENGTH)
    (rest : List UInt8) :
    payloadSection (f.wire ++ rest) = pure (f.head, f.body ++ rest, f.body.length, rest) := by
  rw [payloadSection, readHead_wire, pure_bind]
  by_cases hfin : f.head.FIN = 1
  · rw [if_pos hfin, locatePayload_wire, pure_bind]
  · have hlen := h hfin
    have hfield : f.lengthField = ushortBytes f.body.length := by simp [Frame.lengthField, hlen]
    have hbody := drop_body f rest
    have hrest := drop_wire f rest
    rw [hfield] at hbody hrest
    have hread : readUShort ((f.wire ++ rest).drop 2) = pure f.body.length := by
      rw [drop_lengthField, hfield]
      exact readUShort_ushortBytes f.length_body_lt _
    rcases readUInt_key f (f.body ++ rest) with ⟨mask, hmask⟩
    have hkey : readUInt ((f.wire ++ rest).drop (2 + 2)) = pure mask := by
      rw [← hmask, ← List.drop_drop, drop_lengthField, hfield]
      rfl
    rw [if_neg hfin, Traced.require_true hlen, pure_bind, hread, pure_bind, hkey, pure_bind,
      show (f.wire ++ rest).drop (2 + 2 + 4) = f.body ++ rest from hbody,
      show (f.wire ++ rest).drop (f.body.length + 2 + 2 + 4) = rest from hrest]

/-- The abstract state of a decoder is the list of the bytes in its buffer. -/
def Holds (p : WSProtocol) (acc : List UInt8) : Prop := p.reassembled = acc

/-- After an iteration in front of `rest` the buffer holds `acc` and the loop goes on with
`rest`. -/
def AfterIter (rest : List UInt8) (a : WSProtocol × Option (List UInt8)) (acc : List UInt8) :
    Prop := Holds a.1 acc ∧ a.2 = remaining rest

/-- Copying a payload is keeping it, if there is room. -/
theorem copyPayload_sim (p : WSProtocol) (payl rest : List UInt8) :
    Sim Holds (p.copyPayload (payl ++ rest) payl.length)
      (do Traced.require (p.framePos + payl.length ≤ MAX_FRAMESIZE) .writePastBuffer
          pure (p.reassembled ++ payl)) := by
  by_cases hfit : p.framePos + payl.length ≤ MAX_FRAMESIZE
  · rcases copyPayload_fits p payl rest hfit with ⟨q, hq, hre, -⟩
    rw [hq, Traced.require_true hfit, pure_bind]
    exact Sim.pure hre
  · rw [copyPayload_overflow p payl rest hfit, Traced.require_false hfit, Traced.fail_bind]
    exact Sim.fail _

/-- Delivering the payload of a frame is receiving its fragment. -/
theorem deliver_payload (p : WSProtocol) {f : Frame} (ha : f.Accepted) (rest : List UInt8) :
    Sim Holds (deliver p f.head (f.payload ++ rest) f.payload.length) (receive p.reassembled f) := by
  rw [receive, Traced.require_true ha, pure_bind, deliver]
  by_cases hfin : f.head.FIN = 1
  · rw [if_pos hfin]
    by_cases hop : f.head.Opcode = OpCode.eContinueFrame.code
    · rw [if_pos hop, Frame.fragment_last hfin hop]
      by_cases hfit : p.framePos + f.payload.length ≤ MAX_FRAMESIZE
      · rcases copyPayload_fits p f.payload rest hfit with ⟨q, hq, hre, hpos⟩
        have hcall : ⟨q.reassembled, q.framePos⟩ = FrameCall.of (p.reassembled ++ f.payload) := by
          simp [FrameCall.of, hre, hpos]
        rw [hq, pure_bind, hcall, Traced.require_true (by simpa [Fragment.Fits] using hfit),
          pure_bind, Traced.emit_bind]
        exact Sim.ok hre
      · rw [copyPayload_overflow p f.payload rest hfit,
          Traced.require_false (by simpa [Fragment.Fits] using hfit), Traced.fail_bind]
        exact Sim.fail _
    · have hcall : ⟨(f.payload ++ rest).take f.payload.length, f.payload.length⟩ =
          FrameCall.of f.payload := by
        simp [FrameCall.of]
      have hroom : Fragment.Fits MAX_FRAMESIZE p.reassembled (.whole f.payload) := trivial
      rw [if_neg hop, Frame.fragment_whole hfin hop, hcall, Traced.require_true hroom, pure_bind,
        Traced.emit_bind]
      exact Sim.ok rfl
  · rw [if_neg hfin]
    by_cases hop : f.head.Opcode = OpCode.eTextFrame.code ∨ f.head.Opcode = OpCode.eBlobFrame.code
    · rw [if_pos hop, Frame.fragment_first hfin hop]
      have hcopy := copyPayload_sim p.clear f.payload rest
      simp only [framePos_clear, Nat.zero_add, reassembled_clear, List.nil_append] at hcopy
      exact hcopy
    · rw [if_neg hop, Frame.fragment_middle hfin hop]
      have hcopy := copyPayload_sim p f.payload rest
      simp only [← length_reassembled] at hcopy
      exact hcopy

/-- A frame that is not accepted fails an assertion where its payload is looked for or unmasked. -/
theorem decodeIter_rejected (p : WSProtocol) {f : Frame} (ha : ¬f.Accepted) (rest : List UInt8) :
    decodeIter p (f.wire ++ rest) = Traced.fail .assertion := by
  rw [decodeIter_eq]
  by_cases hlen : f.head.FIN ≠ 1 → f.head.PayloadLen.toNat = SHORT_LENGTH
  · have hm : ¬(f.head.mask = 1 → f.body ≠ []) := fun hbody => ha ⟨hlen, hbody⟩
    rw [Classical.not_imp, Classical.not_not] at hm
    rw [payloadSection_wire hlen, pure_bind, finishFrame, unmaskPayload_empty f _ hm.1 hm.2,
      Traced.fail_bind]
  · rw [Classical.not_imp] at hlen
    rw [payloadSection, readHead_wire, pure_bind, if_neg hlen.1, Traced.require_false hlen.2,
      Traced.fail_bind, Traced.fail_bind]

/-- An iteration that finds a complete frame at the front of the data. -/
theorem decodeIter_wire (p : WSProtocol) (f : Frame) (rest : List UInt8) :
    Sim (AfterIter rest) (decodeIter p (f.wire ++ rest)) (receive p.reassembled f) := by
  by_cases ha : f.Accepted
  · rw [decodeIter_eq, payloadSection_wire ha.1, pure_bind, finishFrame,
      unmaskPayload_body f rest ha.2, pure_bind, ← f.length_payload,
      ← bind_pure (receive p.reassembled f)]
    apply Sim.bind (deliver_payload p ha rest)
    intro q acc hq
    exact Sim.pure ⟨hq, rfl⟩
  · rw [decodeIter_rejected p ha, receive_rejected ha]
    exact Sim.fail _

/-! ## The loop -/

theorem remaining_of_ne_nil {rest : List UInt8} (h : rest ≠ []) : remaining rest = some rest := by
  simp [remaining, h]

/-- The loop on data that is one complete frame. -/
theorem decodeLoop_frame (p : WSProtocol) (f : Frame) {n : Nat} (hn : 0 < n) :
    Sim Holds (decodeLoop n p f.wire) (receive p.reassembled f) := by
  obtain ⟨m, rfl⟩ : ∃ m, n = m + 1 := ⟨n - 1, by omega⟩
  have hiter := decodeIter_wire p f []
  rw [List.append_nil] at hiter
  rw [decodeLoop, ← bind_pure (receive p.reassembled f)]
  apply Sim.bind hiter
  rintro ⟨q, next⟩ acc ⟨hq, hnext⟩
  cases hnext
  exact Sim.pure hq

/-- The loop runs through the complete frames at the front of the data and goes on with what
follows them. -/
theorem decodeLoop_frames {tail : List UInt8} (htail : tail ≠ [])
    {after : List UInt8 → Decode (List UInt8)}
    (hafter : ∀ q m, tail.length < m → Sim Holds (decodeLoop m q tail) (after q.reassembled))
    (fs : List Frame) (p : WSProtocol) {n : Nat} (hn : (wires fs ++ tail).length < n) :
    Sim Holds (decodeLoop n p (wires fs ++ tail)) (receiveAll p.reassembled fs >>= after) := by
  induction fs generalizing p n with
  | nil =>
      rw [receiveAll_nil, pure_bind]
      exact hafter p n hn
  | cons f fs ih =>
      obtain ⟨m, rfl⟩ : ∃ m, n = m + 1 := ⟨n - 1, by omega⟩
      have hrest : wires fs ++ tail ≠ [] := by simp [htail]
      rw [wires_cons, List.append_assoc, List.length_append] at hn
      have hwire : 0 < f.wire.length := List.length_pos_iff.mpr f.wire_ne_nil
      rw [wires_cons, List.append_assoc, receiveAll_cons, bind_assoc, decodeLoop]
      apply Sim.bind (decodeIter_wire p f (wires fs ++ tail))
      rintro ⟨q, next⟩ acc ⟨hq, hnext⟩
      rw [remaining_of_ne_nil hrest] at hnext
      cases hnext
      cases hq
      exact ih q (by omega)

/-! ## Whole calls -/

/-- A call on data that is a sequence of complete frames. -/
theorem decodeFrame_wires (p : WSProtocol) {fs : List Frame} (hne : fs ≠ [])
    (hlen : (wires fs).length < MAX_FRAMESIZE) :
    Sim Holds (decodeFrame p (wires fs)) (receiveAll p.reassembled fs) := by
  rw [decodeFrame, Traced.require_true hlen, pure_bind]
  obtain ⟨gs, f, rfl⟩ : ∃ gs f, fs = gs ++ [f] :=
    ⟨fs.dropLast, fs.getLast hne, (List.dropLast_append_getLast hne).symm⟩
  have hw : wires (gs ++ [f]) = wires gs ++ f.wire := by simp [wires_append]
  rw [hw, receiveAll_append]
  refine decodeLoop_frames f.wire_ne_nil ?_ gs p (Nat.lt_succ_self _)
  intro q m hm
  rw [receiveAll_cons]
  simpa using decodeLoop_frame q f (by omega)

/-- A call on complete frames followed by something else. -/
theorem decodeFrame_wires_append (p : WSProtocol) (fs : List Frame) {tail : List UInt8}
    (htail : tail ≠ []) (hlen : (wires fs ++ tail).length < MAX_FRAMESIZE)
    {after : List UInt8 → Decode (List UInt8)}
    (hafter : ∀ q m, tail.length < m → Sim Holds (decodeLoop m q tail) (after q.reassembled)) :
    Sim Holds (decodeFrame p (wires fs ++ tail)) (receiveAll p.reassembled fs >>= after) := by
  rw [decodeFrame, Traced.require_true hlen, pure_bind]
  exact decodeLoop_frames htail hafter fs p (Nat.lt_succ_self _)

/-- The inputs of a sequence of calls: complete frames, at least one in each call. -/
structure FrameCalls (calls : List (List Frame)) : Prop where
  nonempty : ∀ c ∈ calls, c ≠ []
  length_lt : ∀ c ∈ calls, (wires c).length < MAX_FRAMESIZE

theorem FrameCalls.tail {c : List Frame} {cs : List (List Frame)} (h : FrameCalls (c :: cs)) :
    FrameCalls cs :=
  ⟨fun d hd => h.nonempty d (List.mem_cons_of_mem _ hd),
    fun d hd => h.length_lt d (List.mem_cons_of_mem _ hd)⟩

/-- How the frames are cut into calls makes no difference. -/
theorem decodeCalls_wires (p : WSProtocol) {calls : List (List Frame)} (h : FrameCalls calls) :
    Sim Holds (decodeCalls p (calls.map wires)) (receiveAll p.reassembled calls.flatten) := by
  induction calls generalizing p with
  | nil => exact Sim.pure rfl
  | cons c cs ih =>
      rw [List.map_cons, List.flatten_cons, receiveAll_append, decodeCalls, List.foldlM_cons]
      apply Sim.bind (decodeFrame_wires p (h.nonempty c (by simp)) (h.length_lt c (by simp)))
      rintro q acc hq
      cases hq
      exact ih q h.tail

end WebsocketCpp
