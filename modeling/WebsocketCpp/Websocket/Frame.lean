import WebsocketCpp.Misc.Reassembly
import WebsocketCpp.Websocket.DecodeFrame

/-!
# Complete frames

A `Frame` is a frame that lies completely in the received bytes, in one of the two layouts
of `WSProtocol.cpp`: header, a 16-bit length exactly when the length code is 126, four key
bytes, and the declared payload. FIN, RSV, opcode, mask bit and key are arbitrary. `receive`
is what one such frame means to the decoder, over the list of bytes reassembled so far
instead of the buffer; `Proofs/DecodeRefines.lean` shows that `decodeFrame` computes it.
-/

namespace WebsocketCpp

/-- A complete frame; `body` is the payload as it stands on the wire. -/
structure Frame where
  head : WSHead
  key : List UInt8
  body : List UInt8
  length_key : key.length = 4
  payloadLen_le : head.PayloadLen.toNat ≤ SHORT_LENGTH
  length_body : head.PayloadLen.toNat < SHORT_LENGTH → body.length = head.PayloadLen.toNat
  length_body_lt : body.length < 2 ^ 16

namespace Frame

/-- The 16-bit length, in the layout that has one. -/
def lengthField (f : Frame) : List UInt8 :=
  if f.head.PayloadLen.toNat = SHORT_LENGTH then ushortBytes f.body.length else []

/-- The bytes of the frame. -/
def wire (f : Frame) : List UInt8 := f.head.toBytes ++ f.lengthField ++ f.key ++ f.body

/-- The payload after unmasking. -/
def payload (f : Frame) : List UInt8 := if f.head.mask = 1 then xorMask f.body else f.body

/-- The part the frame plays in a stream of messages. A frame with `FIN == 0` that is neither
text nor blob counts as a continuation, whatever its opcode. -/
def fragment (f : Frame) : Fragment UInt8 :=
  if f.head.FIN = 1 then
    if f.head.Opcode = OpCode.eContinueFrame.code then .last f.payload else .whole f.payload
  else if f.head.Opcode = OpCode.eTextFrame.code ∨ f.head.Opcode = OpCode.eBlobFrame.code then
    .first f.payload
  else .middle f.payload

/-- The frame fails none of the decoder's assertions: a fragment uses the 16-bit length, and
there is something to unmask. -/
def Accepted (f : Frame) : Prop :=
  (f.head.FIN ≠ 1 → f.head.PayloadLen.toNat = SHORT_LENGTH) ∧ (f.head.mask = 1 → f.body ≠ [])

instance (f : Frame) : Decidable f.Accepted :=
  inferInstanceAs (Decidable ((_ → _) ∧ (_ → _)))

@[simp] theorem length_payload (f : Frame) : f.payload.length = f.body.length := by
  unfold payload; split <;> simp

@[simp] theorem chunk_fragment (f : Frame) : f.fragment.chunk = f.payload := by
  unfold fragment; split <;> split <;> rfl

theorem fragment_last {f : Frame} (hfin : f.head.FIN = 1)
    (hop : f.head.Opcode = OpCode.eContinueFrame.code) : f.fragment = .last f.payload := by
  rw [fragment, if_pos hfin, if_pos hop]

theorem fragment_whole {f : Frame} (hfin : f.head.FIN = 1)
    (hop : f.head.Opcode ≠ OpCode.eContinueFrame.code) : f.fragment = .whole f.payload := by
  rw [fragment, if_pos hfin, if_neg hop]

theorem fragment_first {f : Frame} (hfin : f.head.FIN ≠ 1)
    (hop : f.head.Opcode = OpCode.eTextFrame.code ∨ f.head.Opcode = OpCode.eBlobFrame.code) :
    f.fragment = .first f.payload := by
  rw [fragment, if_neg hfin, if_pos hop]

theorem fragment_middle {f : Frame} (hfin : f.head.FIN ≠ 1)
    (hop : ¬(f.head.Opcode = OpCode.eTextFrame.code ∨ f.head.Opcode = OpCode.eBlobFrame.code)) :
    f.fragment = .middle f.payload := by
  rw [fragment, if_neg hfin, if_neg hop]

theorem length_wire (f : Frame) :
    f.wire.length = 6 + f.lengthField.length + f.body.length := by
  simp [wire, f.length_key]; omega

theorem wire_ne_nil (f : Frame) : f.wire ≠ [] := by
  simp [wire, WSHead.toBytes]

/-- A frame in the layout with a 16-bit length. -/
def long (fin : BitVec 1) (op : OpCode) (mask : BitVec 1) (body : List UInt8)
    (h : body.length < 2 ^ 16) : Frame where
  head := ⟨fin, 0, op.code, mask, 126⟩
  key := maskBytes
  body := body
  length_key := length_maskBytes
  payloadLen_le := Nat.le_refl SHORT_LENGTH
  length_body := fun hlt => absurd hlt (Nat.lt_irrefl SHORT_LENGTH)
  length_body_lt := h

/-- A frame in the layout without one. -/
def short (fin : BitVec 1) (op : OpCode) (mask : BitVec 1) (body : List UInt8)
    (h : body.length < SHORT_LENGTH) : Frame where
  head := ⟨fin, 0, op.code, mask, BitVec.ofNat 7 body.length⟩
  key := maskBytes
  body := body
  length_key := length_maskBytes
  payloadLen_le := by simp [SHORT_LENGTH] at h ⊢; omega
  length_body := by simp [SHORT_LENGTH] at h ⊢; omega
  length_body_lt := Nat.lt_trans h (by decide)

end Frame

/-- The bytes of a sequence of frames. -/
def wires (fs : List Frame) : List UInt8 := (fs.map Frame.wire).flatten

@[simp] theorem wires_nil : wires [] = [] := rfl

@[simp] theorem wires_cons (f : Frame) (fs : List Frame) : wires (f :: fs) = f.wire ++ wires fs :=
  rfl

theorem wires_append (fs gs : List Frame) : wires (fs ++ gs) = wires fs ++ wires gs := by
  simp [wires]

@[simp] theorem wires_eq_nil {fs : List Frame} : wires fs = [] ↔ fs = [] := by
  cases fs with
  | nil => simp
  | cons f fs => simp [f.wire_ne_nil]

/-- The payloads are part of the bytes. -/
theorem length_chunks_le (fs : List Frame) :
    ((fs.map Frame.fragment).flatMap Fragment.chunk).length ≤ (wires fs).length := by
  induction fs with
  | nil => exact Nat.le_refl _
  | cons f fs ih =>
      have hwire := f.length_wire
      simp only [List.map_cons, List.flatMap_cons, List.length_append, Frame.chunk_fragment,
        Frame.length_payload, wires_cons] at ih ⊢
      omega

theorem length_wires_le (fs : List Frame) : (wires fs).length ≤ fs.length * (8 + 2 ^ 16) := by
  induction fs with
  | nil => exact Nat.le_refl _
  | cons f fs ih =>
      have hwire := f.length_wire
      have hfield : f.lengthField.length ≤ 2 := by
        unfold Frame.lengthField
        split <;> simp [ushortBytes]
      have hbody := f.length_body_lt
      rw [wires_cons, List.length_append, List.length_cons]
      omega

/-- A single frame is never too long for `decodeFrame`. -/
theorem length_wires_singleton_lt (f : Frame) : (wires [f]).length < MAX_FRAMESIZE :=
  Nat.lt_of_le_of_lt (length_wires_le [f]) (show 1 * (8 + 2 ^ 16) < MAX_FRAMESIZE by decide)

theorem FrameCall.of_injective : Function.Injective FrameCall.of :=
  fun _ _ h => congrArg FrameCall.data h

/-- The effect of one complete frame on the bytes reassembled so far. -/
def receive (acc : List UInt8) (f : Frame) : Decode (List UInt8) := do
  Traced.require f.Accepted .assertion
  Traced.require (f.fragment.Fits MAX_FRAMESIZE acc) .writePastBuffer
  ⟨(f.fragment.emits acc).map FrameCall.of, .ok (f.fragment.keep acc)⟩

/-- The effect of a sequence of frames. -/
def receiveAll (acc : List UInt8) (fs : List Frame) : Decode (List UInt8) := fs.foldlM receive acc

theorem receive_ok {acc : List UInt8} {f : Frame} (ha : f.Accepted)
    (hf : f.fragment.Fits MAX_FRAMESIZE acc) :
    receive acc f = ⟨(f.fragment.emits acc).map FrameCall.of, .ok (f.fragment.keep acc)⟩ := by
  simp only [receive, Traced.require_true ha, Traced.require_true hf, pure_bind]

theorem receive_rejected {acc : List UInt8} {f : Frame} (ha : ¬f.Accepted) :
    receive acc f = Traced.fail .assertion := by
  simp only [receive, Traced.require_false ha, Traced.fail_bind]

theorem receive_overflow {acc : List UInt8} {f : Frame} (ha : f.Accepted)
    (hf : ¬f.fragment.Fits MAX_FRAMESIZE acc) :
    receive acc f = Traced.fail .writePastBuffer := by
  simp only [receive, Traced.require_true ha, Traced.require_false hf, pure_bind, Traced.fail_bind]

/-- A frame is received, or it stops the receiver and nothing is delivered. -/
theorem receive_cases (acc : List UInt8) (f : Frame) :
    (f.Accepted ∧ f.fragment.Fits MAX_FRAMESIZE acc ∧
      receive acc f = ⟨(f.fragment.emits acc).map FrameCall.of, .ok (f.fragment.keep acc)⟩) ∨
    (¬(f.Accepted ∧ f.fragment.Fits MAX_FRAMESIZE acc) ∧
      ∃ e, e ≠ Fault.readPastEnd ∧ receive acc f = Traced.fail e) := by
  by_cases ha : f.Accepted
  · by_cases hf : f.fragment.Fits MAX_FRAMESIZE acc
    · exact .inl ⟨ha, hf, receive_ok ha hf⟩
    · exact .inr ⟨fun h => hf h.2, .writePastBuffer, by decide, receive_overflow ha hf⟩
  · exact .inr ⟨fun h => ha h.1, .assertion, by decide, receive_rejected ha⟩

/-- What stops the receiver at a frame. -/
theorem receive_error {acc : List UInt8} {f : Frame} {e : Fault}
    (h : (receive acc f).result = .error e) :
    (¬f.Accepted ∧ e = .assertion) ∨
      (f.Accepted ∧ ¬f.fragment.Fits MAX_FRAMESIZE acc ∧ e = .writePastBuffer) := by
  by_cases ha : f.Accepted
  · by_cases hf : f.fragment.Fits MAX_FRAMESIZE acc
    · rw [receive_ok ha hf] at h
      cases h
    · rw [receive_overflow ha hf] at h
      cases h
      exact .inr ⟨ha, hf, rfl⟩
  · rw [receive_rejected ha] at h
    cases h
    exact .inl ⟨ha, rfl⟩

/-- What a frame that is received leaves behind. -/
theorem receive_result {acc acc' : List UInt8} {f : Frame} (h : (receive acc f).result = .ok acc') :
    f.Accepted ∧ f.fragment.Fits MAX_FRAMESIZE acc ∧ f.fragment.keep acc = acc' := by
  rcases receive_cases acc f with ⟨ha, hf, hok⟩ | ⟨-, e, -, hfail⟩
  · rw [hok] at h
    exact ⟨ha, hf, Except.ok.inj h⟩
  · rw [hfail] at h
    cases h

@[simp] theorem receiveAll_nil (acc : List UInt8) : receiveAll acc [] = pure acc := rfl

@[simp] theorem receiveAll_cons (acc : List UInt8) (f : Frame) (fs : List Frame) :
    receiveAll acc (f :: fs) = receive acc f >>= fun acc => receiveAll acc fs := rfl

theorem receiveAll_singleton (acc : List UInt8) (f : Frame) :
    receiveAll acc [f] = receive acc f := bind_pure _

theorem receiveAll_append (acc : List UInt8) (fs gs : List Frame) :
    receiveAll acc (fs ++ gs) = receiveAll acc fs >>= fun acc => receiveAll acc gs :=
  List.foldlM_append

/-- Whatever is received, the bytes kept are those the fragments leave pending. -/
theorem pending_of_receiveAll {acc acc' : List UInt8} {fs : List Frame}
    (h : (receiveAll acc fs).result = .ok acc') :
    Fragment.pending acc (fs.map Frame.fragment) = acc' := by
  induction fs generalizing acc with
  | nil => exact Except.ok.inj h
  | cons f fs ih =>
      obtain ⟨mid, hmid, hrest⟩ := Traced.result_bind h
      obtain ⟨-, -, rfl⟩ := receive_result hmid
      exact ih hrest

/-- Frames that are received without a fault are all accepted. -/
theorem accepted_of_receiveAll {acc acc' : List UInt8} {fs : List Frame}
    (h : (receiveAll acc fs).result = .ok acc') : ∀ f ∈ fs, f.Accepted := by
  induction fs generalizing acc with
  | nil =>
      intro f hf
      cases hf
  | cons f fs ih =>
      obtain ⟨mid, hmid, hrest⟩ := Traced.result_bind h
      intro g hg
      rcases List.mem_cons.mp hg with rfl | hg
      · exact (receive_result hmid).1
      · exact ih hrest g hg

/-- Frames that are all accepted and all find room: the receiver replays their fragments. -/
theorem receiveAll_ok {acc : List UInt8} {fs : List Frame} (ha : ∀ f ∈ fs, f.Accepted)
    (hf : Fragment.AllFit MAX_FRAMESIZE acc (fs.map Frame.fragment)) :
    receiveAll acc fs = ⟨(Fragment.replay acc (fs.map Frame.fragment)).map FrameCall.of,
      .ok (Fragment.pending acc (fs.map Frame.fragment))⟩ := by
  induction fs generalizing acc with
  | nil => rfl
  | cons f fs ih =>
      obtain ⟨hfit, hrest⟩ := hf
      rw [receiveAll_cons, receive_ok (ha f (by simp)) hfit]
      rw [Traced.bind_of_ok rfl, ih (fun g hg => ha g (List.mem_cons_of_mem _ hg)) hrest]
      simp

end WebsocketCpp
