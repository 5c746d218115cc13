import WebsocketCpp.Websocket.Proofs.DecodeRefines
import WebsocketCpp.Websocket.Proofs.RoundTrip

/-!
# Frame boundaries

Where the encoder ends a buffer and where `decodeFrame` takes the next header
(`websocket/WSProtocol.cpp:96-230`, `314-414`). `lens` observes the decoder: the values that `len`
takes as the loop advances `data`. Every buffer declares its own length (`selfDelimiting_encode`),
and the decoder stops at the ends of the buffers as long as it goes on, that is up to the empty last
slice of a message that is a multiple of `SLICE_SIZE` (`boundaries_iff`).
-/

namespace WebsocketCpp

/-! ## Buffers -/

/-- The payload length a header declares, with the 16-bit length behind it where there is one. -/
def declaredLen (header : WSHead) (buff : List UInt8) : Except Fault Nat :=
  if header.PayloadLen.toNat = SHORT_LENGTH then (readUShort (buff.drop 2)).result
  else .ok header.PayloadLen.toNat

/-- A buffer says where it ends: the length code is at most 126, which stands for the 16-bit length
and is used from 126 bytes on, and the buffer is as long as header, length, key and declared
payload. -/
def SelfDelimiting (buff : List UInt8) : Prop :=
  ∃ header payll, (readHead buff).result = .ok header ∧ declaredLen header buff = .ok payll ∧
    header.PayloadLen.toNat ≤ SHORT_LENGTH ∧
    (header.PayloadLen.toNat = SHORT_LENGTH ↔ SHORT_LENGTH ≤ payll) ∧
    buff.length = 2 + (if header.PayloadLen.toNat = SHORT_LENGTH then 2 else 0) + 4 + payll

theorem declaredLen_wire (f : Frame) (rest : List UInt8) :
    declaredLen f.head (f.wire ++ rest) = .ok f.body.length := by
  unfold declaredLen
  split
  · rename_i heq
    have hfield : f.lengthField = ushortBytes f.body.length := if_pos heq
    rw [drop_lengthField, hfield, readUShort_ushortBytes f.length_body_lt]
    rfl
  · rename_i hne
    rw [f.length_body (Nat.lt_of_le_of_ne f.payloadLen_le hne)]

/-- The encoder picks the 16-bit length by the size of the payload. -/
theorem selfDelimiting_dataFrame (fin : BitVec 1) (op : BitVec 4) (body : List UInt8)
    (h : body.length < 2 ^ 16) : SelfDelimiting (dataFrame fin op body h).wire := by
  have hread := readHead_wire (dataFrame fin op body h) []
  have hdecl := declaredLen_wire (dataFrame fin op body h) []
  rw [List.append_nil] at hread hdecl
  have hcode : (dataFrame fin op body h).head.PayloadLen.toNat = min body.length SHORT_LENGTH := by
    show (BitVec.ofNat 7 (min body.length SHORT_LENGTH)).toNat = _
    rw [BitVec.toNat_ofNat, SHORT_LENGTH]
    omega
  refine ⟨_, body.length, by rw [hread]; rfl, hdecl, ?_, ?_, ?_⟩
  · rw [hcode]
    exact Nat.min_le_right ..
  · rw [hcode]
    omega
  · rw [Frame.length_wire, Frame.lengthField, hcode]
    show 6 + _ + body.length = _
    split <;> simp [ushortBytes]

theorem Message.selfDelimiting_encode (m : Message) {buff : List UInt8} (h : buff ∈ m.encode.out) :
    SelfDelimiting buff := by
  rw [m.encode_eq] at h
  obtain ⟨f, hf, rfl⟩ := List.mem_map.mp h
  by_cases hlen : m.payload.length < SLICE_SIZE
  · rw [m.frames_of_lt hlen] at hf
    rw [List.mem_singleton.mp hf]
    exact selfDelimiting_dataFrame ..
  · rw [m.frames_of_le (Nat.le_of_not_lt hlen)] at hf
    obtain ⟨i, -, rfl⟩ := List.mem_map.mp hf
    exact selfDelimiting_dataFrame ..

/-! ## Where the decoder goes on -/

/-- By how much an iteration of `decodeFrame` advances `data` and reduces `len`, if it comes to that.
With FIN == 1 it does so before the payload is unmasked (`WSProtocol.cpp:316-331`, `352-367`), else
at its end (`WSProtocol.cpp:407-409`). -/
def advance (p : WSProtocol) (data : List UInt8) : Except Fault Nat := do
  let header ← (readHead data).result
  if header.FIN = 1 then
    if header.PayloadLen.toNat < SHORT_LENGTH then pure (header.PayloadLen.toNat + 2 + 4)
    else if header.PayloadLen.toNat = SHORT_LENGTH then do
      let payll ← (readUShort (data.drop 2)).result
      pure (payll + 2 + 2 + 4)
    else pure 0
  else
    let _ ← (decodeIter p data).result
    let payllen ← (readUShort (data.drop 2)).result
    pure (payllen + 2 + 2 + 4)

/-- The values that `len` takes in the loop of `decodeFrame`, which it enters with `len`. -/
def lens : Nat → WSProtocol → List UInt8 → Int → List Int
  | 0, _, _, _ => []
  | n + 1, p, data, len =>
    match advance p data with
    | .error _ => []
    | .ok size => (len - size) ::
      match (decodeIter p data).result with
      | .ok (q, some rest) => lens n q rest (len - size)
      | .ok (_, none) | .error _ => []

/-- The values that `len` takes in a call of `decodeFrame`. -/
def decodedLens (p : WSProtocol) (data : List UInt8) : List Int :=
  if data.length < MAX_FRAMESIZE then lens (data.length + 1) p data data.length else []

/-- How many bytes follow each of the buffers. -/
def encodedLens : List (List UInt8) → List Int
  | [] => []
  | _ :: buffs => (buffs.flatten.length : Int) :: encodedLens buffs

/-- A frame leaves `len` where the next one begins, if the iteration comes to that. -/
theorem advance_wire {p : WSProtocol} {f : Frame} {rest : List UInt8}
    (h : f.head.FIN = 1 ∨ ∃ next, (decodeIter p (f.wire ++ rest)).result = .ok next) :
    advance p (f.wire ++ rest) = .ok f.wire.length := by
  have hlen := f.length_wire
  have hread : (readHead (f.wire ++ rest)).result = .ok f.head := by
    rw [readHead_wire]
    rfl
  have hlong (heq : f.head.PayloadLen.toNat = SHORT_LENGTH) :
      (readUShort ((f.wire ++ rest).drop 2)).result = .ok f.body.length ∧
        f.body.length + 2 + 2 + 4 = f.wire.length := by
    have hfield : f.lengthField = ushortBytes f.body.length := if_pos heq
    rw [drop_lengthField, hlen, hfield, readUShort_ushortBytes f.length_body_lt]
    exact ⟨rfl, by simp only [ushortBytes, List.length_cons, List.length_nil]; omega⟩
  unfold advance
  rw [hread]
  by_cases hfin : f.head.FIN = 1
  · rcases Nat.lt_or_eq_of_le f.payloadLen_le with hlt | heq
    · have hsize : f.head.PayloadLen.toNat + 2 + 4 = f.wire.length := by
        rw [hlen, Frame.lengthField, if_neg (Nat.ne_of_lt hlt), f.length_body hlt, List.length_nil]
        omega
      rw [← hsize]
      simp only [bind, Except.bind, if_pos hfin, if_pos hlt]
      rfl
    · obtain ⟨hpayll, hsize⟩ := hlong heq
      rw [← hsize]
      simp only [bind, Except.bind, if_pos hfin, if_neg (Nat.not_lt.mpr (Nat.le_of_eq heq.symm)),
        if_pos heq, hpayll]
      rfl
  · obtain ⟨next, hiter⟩ := h.resolve_left hfin
    -- an iteration that ends has found the 16-bit length
    obtain ⟨acc, hacc, -⟩ := (decodeIter_wire p f rest).ok_left hiter
    obtain ⟨hpayll, hsize⟩ := hlong ((receive_result hacc).1.1 hfin)
    rw [← hsize]
    simp only [bind, Except.bind, if_neg hfin, hiter, hpayll]
    rfl

/-- With FIN == 0 the update is not reached if the frame is not received. -/
theorem advance_error {p : WSProtocol} {f : Frame} {rest : List UInt8} {e : Fault}
    (hfin : f.head.FIN ≠ 1) (herr : (decodeIter p (f.wire ++ rest)).result = .error e) :
    advance p (f.wire ++ rest) = .error e := by
  have hread : (readHead (f.wire ++ rest)).result = .ok f.head := by
    rw [readHead_wire]
    rfl
  unfold advance
  rw [hread]
  simp only [bind, Except.bind, if_neg hfin, herr]

/-- The values of `len` over complete frames: each is the length of what follows the frame. The loop
ends at a frame that is not received, with FIN == 1 after the update. -/
def frameLens : List UInt8 → List Frame → List Int
  | _, [] => []
  | acc, f :: fs =>
    if f.Accepted ∧ f.fragment.Fits MAX_FRAMESIZE acc then
      ((wires fs).length : Int) :: frameLens (f.fragment.keep acc) fs
    else if f.head.FIN = 1 then [((wires fs).length : Int)]
    else []

theorem lens_wires (p : WSProtocol) (fs : List Frame) {n : Nat} (hn : (wires fs).length < n) :
    lens n p (wires fs) (wires fs).length = frameLens p.reassembled fs := by
  induction fs generalizing p n with
  | nil =>
      obtain ⟨m, rfl⟩ : ∃ m, n = m + 1 := ⟨n - 1, by omega⟩
      rfl
  | cons f fs ih =>
      obtain ⟨m, rfl⟩ : ∃ m, n = m + 1 := ⟨n - 1, by omega⟩
      have hwire : 0 < f.wire.length := List.length_pos_iff.mpr f.wire_ne_nil
      rw [wires_cons, List.length_append] at hn
      have hsub : (((f.wire ++ wires fs).length : Nat) : Int) - (f.wire.length : Nat) =
          (wires fs).length := by
        rw [List.length_append]
        omega
      have hsim := decodeIter_wire p f (wires fs)
      rw [wires_cons, lens, frameLens]
      rcases receive_cases p.reassembled f with ⟨ha, hf, hok⟩ | ⟨hno, e, -, hfail⟩
      · rw [hok] at hsim
        obtain ⟨⟨q, next⟩, hiter, hq, hnext⟩ := hsim.ok_right rfl
        rw [advance_wire (.inr ⟨_, hiter⟩), hiter, if_pos ⟨ha, hf⟩]
        dsimp only
        rw [hsub, ← show q.reassembled = _ from hq]
        cases fs with
        | nil =>
            obtain rfl : next = none := hnext
            rfl
        | cons g gs =>
            obtain rfl : next = some (wires (g :: gs)) :=
              hnext.trans (remaining_of_ne_nil (mt wires_eq_nil.mp (List.cons_ne_nil g gs)))
            exact congrArg _ (ih q (by omega))
      · rw [hfail] at hsim
        have hiter : (decodeIter p (f.wire ++ wires fs)).result = .error e :=
          (hsim.error_iff e).mpr rfl
        rw [if_neg hno, hiter]
        by_cases hfin : f.head.FIN = 1
        · rw [advance_wire (.inl hfin), if_pos hfin]
          dsimp only
          rw [hsub]
        · rw [advance_error hfin hiter, if_neg hfin]

/-- The decoder's values are the encoder's exactly if no frame but the last one is rejected. -/
theorem frameLens_eq_iff {acc : List UInt8} {fs : List Frame}
    (hfit : Fragment.AllFit MAX_FRAMESIZE acc (fs.map Frame.fragment))
    (hrej : ∀ f ∈ fs, ¬f.Accepted → f.head.FIN = 1) :
    frameLens acc fs = encodedLens (fs.map Frame.wire) ↔ ∀ f ∈ fs.dropLast, f.Accepted := by
  induction fs generalizing acc with
  | nil => simp [frameLens, encodedLens]
  | cons f fs ih =>
      obtain ⟨hf, hfit⟩ := hfit
      have henc : encodedLens ((f :: fs).map Frame.wire) =
          ((wires fs).length : Int) :: encodedLens (fs.map Frame.wire) := rfl
      have hih := ih hfit fun g hg => hrej g (List.mem_cons_of_mem _ hg)
      rw [frameLens, henc]
      cases fs with
      | nil =>
          refine iff_of_true ?_ (by simp)
          by_cases ha : f.Accepted
          · rw [if_pos ⟨ha, hf⟩]
            rfl
          · rw [if_neg (fun h => ha h.1), if_pos (hrej f (List.mem_cons_self ..) ha)]
            rfl
      | cons g gs =>
          rw [List.dropLast_cons_of_ne_nil (List.cons_ne_nil g gs), List.forall_mem_cons]
          by_cases ha : f.Accepted
          · rw [if_pos ⟨ha, hf⟩, List.cons_inj_right, hih, and_iff_right ha]
          · rw [if_neg (fun h => ha h.1), if_pos (hrej f (List.mem_cons_self ..) ha)]
            refine iff_of_false ?_ (fun h => ha h.1)
            intro h
            cases (List.cons.inj h).2

/-! ## Messages -/

/-- A message finds room whatever the buffer holds. -/
theorem Message.allFit_frames (m : Message) (acc : List UInt8)
    (h : (wires m.frames).length < MAX_FRAMESIZE) :
    Fragment.AllFit MAX_FRAMESIZE acc (m.frames.map Frame.fragment) := by
  by_cases hlen : m.payload.length < SLICE_SIZE
  · rw [m.frames_of_lt hlen, List.map_singleton, m.fragment_dataFrame]
    exact ⟨trivial, trivial⟩
  · -- the first slice clears the buffer
    have hfit : Fragment.AllFit MAX_FRAMESIZE [] (m.frames.map Frame.fragment) := by
      apply Fragment.allFit_of_length_le
      have hle := length_chunks_le m.frames
      rw [List.length_nil]
      omega
    have hlen' := Nat.le_of_not_lt hlen
    obtain ⟨n, hn⟩ : ∃ n, m.slice = n + 1 :=
      Nat.exists_eq_succ_of_ne_zero (Nat.ne_of_gt (m.slice_pos hlen'))
    rw [m.frames_of_le hlen', hn, List.range_succ_eq_map, List.map_cons, List.map_cons,
      m.fragment_sliceFrame_zero] at hfit ⊢
    exact hfit

theorem framesOf_cons (m : Message) (ms : List Message) :
    framesOf (m :: ms) = m.frames ++ framesOf ms := List.flatMap_cons

theorem allFit_framesOf (msgs : List Message) (acc : List UInt8)
    (h : (wires (framesOf msgs)).length < MAX_FRAMESIZE) :
    Fragment.AllFit MAX_FRAMESIZE acc ((framesOf msgs).map Frame.fragment) := by
  induction msgs generalizing acc with
  | nil => trivial
  | cons m ms ih =>
      rw [framesOf_cons, wires_append, List.length_append] at h
      rw [framesOf_cons, List.map_append, Fragment.allFit_append]
      exact ⟨m.allFit_frames acc (by omega), ih _ (by omega)⟩

theorem Message.frames_ne_nil (m : Message) : m.frames ≠ [] := by
  by_cases hlen : m.payload.length < SLICE_SIZE
  · rw [m.frames_of_lt hlen]
    exact List.cons_ne_nil _ _
  · have hpos := m.slice_pos (Nat.le_of_not_lt hlen)
    rw [m.frames_of_le (Nat.le_of_not_lt hlen), Ne, List.map_eq_nil_iff, List.range_eq_nil]
    omega

theorem framesOf_eq_nil {msgs : List Message} : framesOf msgs = [] ↔ msgs = [] := by
  cases msgs with
  | nil => exact iff_of_true rfl rfl
  | cons m ms => simp [framesOf_cons, m.frames_ne_nil]

/-- No frame but the last one is rejected exactly if no message but the last one stops the
decoder. -/
theorem accepted_dropLast_framesOf (msgs : List Message) :
    (∀ f ∈ (framesOf msgs).dropLast, f.Accepted) ↔ ∀ m ∈ msgs.dropLast, ¬m.Aborts := by
  induction msgs with
  | nil => simp [framesOf]
  | cons m ms ih =>
      cases ms with
      | nil =>
          refine iff_of_true (fun f hf => ?_) (by simp)
          rw [framesOf_cons, show framesOf [] = [] from rfl, List.append_nil] at hf
          exact m.accepted_of_mem_dropLast hf
      | cons m' ms =>
          have hne : framesOf (m' :: ms) ≠ [] := mt framesOf_eq_nil.mp (List.cons_ne_nil m' ms)
          rw [framesOf_cons, List.dropLast_append_of_ne_nil hne,
            List.dropLast_cons_of_ne_nil (List.cons_ne_nil m' ms), List.forall_mem_append,
            List.forall_mem_cons, ih, m.accepted_frames_iff]

theorem getLast?_encodedLens {buffs : List (List UInt8)} (h : buffs ≠ []) :
    (encodedLens buffs).getLast? = some 0 := by
  induction buffs with
  | nil => exact absurd rfl h
  | cons b bs ih =>
      cases bs with
      | nil => rfl
      | cons b' bs =>
          have hih := ih (List.cons_ne_nil b' bs)
          rw [encodedLens, encodedLens] at *
          rw [List.getLast?_cons_cons]
          exact hih

/-- The framing of a sequence of messages: every buffer declares its own length, and `decodeFrame`
finds the buffers' ends. -/
structure Framed (p : WSProtocol) (msgs : List Message) : Prop where
  selfDelimiting : ∀ m ∈ msgs, ∀ buff ∈ m.encode.out, SelfDelimiting buff
  boundaries : decodedLens p (sent msgs) = encodedLens (msgs.flatMap fun m => m.encode.out)
  last_zero : msgs ≠ [] → (decodedLens p (sent msgs)).getLast? = some 0

theorem buffers_eq (msgs : List Message) :
    (msgs.flatMap fun m => m.encode.out) = (framesOf msgs).map Frame.wire := by
  simp only [framesOf, List.map_flatMap, Message.encode_eq]

/-- The values of `len` in a call on everything that was sent. -/
theorem decodedLens_sent (p : WSProtocol) {msgs : List Message}
    (h : (sent msgs).length < MAX_FRAMESIZE) :
    decodedLens p (sent msgs) = frameLens p.reassembled (framesOf msgs) := by
  rw [decodedLens, if_pos h, sent_eq]
  exact lens_wires p (framesOf msgs) (Nat.lt_succ_self _)

theorem decodedLens_eq_iff (p : WSProtocol) (msgs : List Message) :
    decodedLens p (sent msgs) = encodedLens (msgs.flatMap fun m => m.encode.out) ↔
      (sent msgs).length < MAX_FRAMESIZE ∧ ∀ m ∈ msgs.dropLast, ¬m.Aborts := by
  by_cases hlen : (sent msgs).length < MAX_FRAMESIZE
  · rw [decodedLens_sent p hlen, buffers_eq, and_iff_right hlen, ← accepted_dropLast_framesOf]
    apply frameLens_eq_iff
    · exact allFit_framesOf msgs p.reassembled (by rwa [← sent_eq])
    · intro f hf hrej
      obtain ⟨m, -, hm⟩ := List.mem_flatMap.mp hf
      exact (m.aborts_of_rejected hm hrej).2.2.2
  · refine iff_of_false (fun h => hlen ?_) (fun h => hlen h.1)
    rw [decodedLens, if_neg hlen] at h
    cases hb : msgs.flatMap fun m => m.encode.out with
    | nil =>
        rw [sent, hb]
        decide
    | cons b bs =>
        rw [hb] at h
        cases h

/-- The boundaries agree exactly if the whole is short enough for a call and no message but the last
one ends with an empty slice. -/
theorem boundaries_iff (p : WSProtocol) (msgs : List Message) :
    Framed p msgs ↔
      (sent msgs).length < MAX_FRAMESIZE ∧ ∀ m ∈ msgs.dropLast, ¬m.Aborts := by
  rw [← decodedLens_eq_iff p msgs]
  refine ⟨Framed.boundaries, fun h => ⟨fun m _ buff => m.selfDelimiting_encode, h, ?_⟩⟩
  intro hne
  rw [h, buffers_eq]
  apply getLast?_encodedLens
  rwa [Ne, List.map_eq_nil_iff, framesOf_eq_nil]

/-- A text of two full slices. -/
def evenText : Message :=
  .text (List.replicate 1000 97) (List.ne_nil_of_length_pos (by rw [List.length_replicate]; decide))

theorem evenText_aborts : evenText.Aborts := by
  have hlen : evenText.payload.length = 1000 := List.length_replicate
  exact ⟨by rw [hlen]; decide, by rw [Message.lastlen, hlen]; decide⟩

/-- The text after it is not reached. -/
theorem not_framed_evenText :
    ¬Framed (.new fun _ => 0) [evenText, .text [98] (List.cons_ne_nil 98 [])] := by
  intro h
  have hno := ((decodedLens_eq_iff _ _).mp h.boundaries).2 evenText (List.mem_cons_self ..)
  exact hno evenText_aborts

end WebsocketCpp
