import WebsocketCpp.Websocket.Proofs.DecodeRefines
import WebsocketCpp.Websocket.Proofs.EncodeFrames

/-!
# What a decoder delivers of the messages sent

One call of `decodeFrame` on everything `encodeFrame` emits for a sequence of messages
(`websocket/WSProtocol.cpp:74-418`). `decodeFrame_sent` says what is delivered; `roundTrip_iff`
which sequences come out as they went in. A sliced message comes out unless its last slice is
a full one, or is shorter than 126 bytes and differs from the start of the slice before it,
which is what the short layout carries in its place.
-/

namespace WebsocketCpp

namespace Message

variable (m : Message)

/-! ## The frames of a sliced message -/

/-- The full slices fill the buffer with the front of the payload. -/
theorem replay_fullSlices (acc : List UInt8) (n : Nat) (hn : n = 0 ∨ n + 1 < m.slice) :
    let fragments := ((List.range (n + 1)).map m.sliceFrame).map Frame.fragment
    Fragment.replay acc fragments = [] ∧
      Fragment.pending acc fragments = m.payload.take ((n + 1) * SLICE_SIZE) := by
  induction n with
  | zero =>
      refine ⟨?_, ?_⟩
      · simp [List.range_succ, m.fragment_sliceFrame_zero, Fragment.emits]
      · simp [List.range_succ, m.fragment_sliceFrame_zero, Fragment.keep]
  | succ n ih =>
      obtain ⟨hreplay, hpending⟩ := ih (by omega)
      have hfrag := m.fragment_sliceFrame_middle (i := n + 1) (by omega) (by omega)
      dsimp only
      rw [List.range_succ, List.map_append, List.map_append, Fragment.replay_append,
        Fragment.pending_append, hreplay, hpending]
      refine ⟨?_, ?_⟩
      · simp [hfrag, Fragment.emits]
      · rw [Nat.succ_mul (n + 1), List.take_add]
        simp [hfrag, Fragment.keep, slicePayload]

/-! ## Deliveries -/

/-- What the decoder delivers for a message. -/
def delivered : Option (List UInt8) :=
  if m.payload.length < SLICE_SIZE then some m.payload
  else if 0 < m.lastlen then
    let whole := m.payload.length / SLICE_SIZE
    some (m.payload.take (whole * SLICE_SIZE) ++
      slicePayload m.payload (m.sliceStart whole) m.lastlen)
  else none

/-- The message makes the decoder fail the assertion of `computeUnMask`: its last slice is
empty. -/
def Aborts : Prop := SLICE_SIZE < m.payload.length ∧ m.lastlen = 0

instance : Decidable m.Aborts := inferInstanceAs (Decidable (_ ∧ _))

theorem not_aborts_of_lt (h : m.payload.length < SLICE_SIZE) : ¬m.Aborts :=
  fun ha => Nat.lt_asymm h ha.1

/-- Only an empty last slice is rejected. -/
theorem aborts_of_rejected {f : Frame} (hf : f ∈ m.frames) (hrej : ¬f.Accepted) :
    m.Aborts ∧ 0 < m.slice ∧ f = m.sliceFrame (m.slice - 1) ∧ f.head.FIN = 1 := by
  by_cases hlen : m.payload.length < SLICE_SIZE
  · rw [m.frames_of_lt hlen] at hf
    rw [List.mem_singleton.mp hf] at hrej
    exact absurd (m.accepted_dataFrame _) hrej
  have hlen' : SLICE_SIZE ≤ m.payload.length := Nat.le_of_not_lt hlen
  rw [m.frames_of_le hlen'] at hf
  obtain ⟨i, hi, rfl⟩ := List.mem_map.mp hf
  rw [List.mem_range] at hi
  have hzero : m.sliceSize i = 0 := by
    by_contra hne
    exact hrej (m.accepted_sliceFrame hlen' hi (Nat.pos_of_ne_zero hne))
  have hlast : ¬(i = 0 ∨ i + 1 < m.slice) := by
    intro hfull
    rw [m.sliceSize_full hfull] at hzero
    cases hzero
  rw [m.sliceSize_last hlast] at hzero
  have hslice : m.slice = m.payload.length / SLICE_SIZE :=
    if_neg (Nat.not_lt.mpr (Nat.le_of_eq hzero))
  have hbounds := m.slice_bounds
  have hpos : 1 < m.payload.length / SLICE_SIZE := by omega
  have hmul : SLICE_SIZE * 2 ≤ SLICE_SIZE * (m.payload.length / SLICE_SIZE) :=
    Nat.mul_le_mul_left _ hpos
  have hsize : 0 < SLICE_SIZE := by decide
  refine ⟨⟨by omega, hzero⟩, by omega, ?_, if_neg hlast⟩
  rw [show m.slice - 1 = i by omega]

/-- The frames of a message that does not stop the decoder are all accepted. -/
theorem accepted_frames_iff : (∀ f ∈ m.frames, f.Accepted) ↔ ¬m.Aborts := by
  refine ⟨?_, ?_⟩
  · intro hall haborts
    have hlen : SLICE_SIZE ≤ m.payload.length := Nat.le_of_lt haborts.1
    have hslice : m.slice = m.payload.length / SLICE_SIZE :=
      if_neg (Nat.not_lt.mpr (Nat.le_of_eq haborts.2))
    have hbounds := m.slice_bounds
    have htwo : 1 < m.slice := by
      have hlong := haborts.1
      have hlast := haborts.2
      rw [hslice]
      by_contra hle
      have hmul : SLICE_SIZE * (m.payload.length / SLICE_SIZE) ≤ SLICE_SIZE * 1 :=
        Nat.mul_le_mul_left _ (Nat.le_of_not_lt hle)
      omega
    rw [m.frames_of_le hlen] at hall
    have hmem : m.sliceFrame (m.slice - 1) ∈ (List.range m.slice).map m.sliceFrame :=
      List.mem_map_of_mem (List.mem_range.mpr (by omega))
    refine m.not_accepted_sliceFrame hlen (i := m.slice - 1) (by omega) ?_ (hall _ hmem)
    rw [m.sliceSize_last (by omega), haborts.2]
  · intro hno f hf
    by_contra hrej
    exact hno (m.aborts_of_rejected hf hrej).1

/-- Nothing but the last frame of a message is ever rejected. -/
theorem accepted_of_mem_dropLast {f : Frame} (hf : f ∈ m.frames.dropLast) : f.Accepted := by
  by_contra hrej
  obtain ⟨haborts, hpos, -, hfin⟩ := m.aborts_of_rejected (List.dropLast_subset _ hf) hrej
  rw [m.frames_of_le (Nat.le_of_lt haborts.1)] at hf
  obtain ⟨n, hn⟩ : ∃ n, m.slice = n + 1 := ⟨m.slice - 1, by omega⟩
  rw [hn, List.range_succ, List.map_append, List.map_singleton, List.dropLast_concat] at hf
  obtain ⟨i, hi, rfl⟩ := List.mem_map.mp hf
  rw [List.mem_range] at hi
  -- a slice before the last one is not final
  have hfull : (m.sliceFrame i).head.FIN = 0 := if_pos (.inr (by omega))
  rw [hfin] at hfull
  cases hfull

/-- A message that is not sliced is one complete frame. -/
theorem receiveAll_frames_short (acc : List UInt8) (h : m.payload.length < SLICE_SIZE) :
    receiveAll acc m.frames = ⟨[FrameCall.of m.payload], .ok acc⟩ := by
  rw [m.frames_of_lt h, receiveAll_singleton]
  have ha := m.accepted_dataFrame (m.length_xorMask_lt h)
  rw [receive_ok ha (by rw [m.fragment_dataFrame]; trivial), m.fragment_dataFrame]
  rfl

/-- All slices but the last one, as far as they are full. -/
theorem receiveAll_fullSlices (acc : List UInt8) (hlen : SLICE_SIZE ≤ m.payload.length) (n : Nat)
    (hn : n = 0 ∨ n + 1 < m.slice)
    (hfit : Fragment.AllFit MAX_FRAMESIZE acc
      (((List.range (n + 1)).map m.sliceFrame).map Frame.fragment)) :
    receiveAll acc ((List.range (n + 1)).map m.sliceFrame) =
      ⟨[], .ok (m.payload.take ((n + 1) * SLICE_SIZE))⟩ := by
  have hpos := m.slice_pos hlen
  obtain ⟨hreplay, hpending⟩ := m.replay_fullSlices acc n hn
  have ha : ∀ f ∈ (List.range (n + 1)).map m.sliceFrame, f.Accepted := by
    intro f hf
    obtain ⟨i, hi, rfl⟩ := List.mem_map.mp hf
    rw [List.mem_range] at hi
    apply m.accepted_sliceFrame hlen (by omega)
    rw [m.sliceSize_full (by omega)]
    decide
  rw [receiveAll_ok ha hfit, hreplay, hpending]
  rfl

/-- Behind the full slices it comes down to the last one. -/
theorem receiveAll_lastSlice {acc : List UInt8} (hlen : SLICE_SIZE ≤ m.payload.length) {n : Nat}
    (hslice : m.slice = n + 1 + 1)
    (hfit : Fragment.AllFit MAX_FRAMESIZE acc (m.frames.map Frame.fragment)) :
    (m.sliceFrame (n + 1)).fragment.Fits MAX_FRAMESIZE (m.payload.take ((n + 1) * SLICE_SIZE)) ∧
      receiveAll acc m.frames =
        receive (m.payload.take ((n + 1) * SLICE_SIZE)) (m.sliceFrame (n + 1)) := by
  rw [m.frames_of_le hlen, hslice, List.range_succ, List.map_append] at hfit ⊢
  rw [List.map_append, Fragment.allFit_append, (m.replay_fullSlices acc n (by omega)).2] at hfit
  refine ⟨hfit.2.1, ?_⟩
  rw [receiveAll_append, m.receiveAll_fullSlices acc hlen n (by omega) hfit.1, Traced.mk_bind,
    List.map_singleton, receiveAll_singleton]
  rfl

/-- The frames of a message, received into a buffer that has room for them. -/
theorem receiveAll_frames (acc : List UInt8)
    (hfit : Fragment.AllFit MAX_FRAMESIZE acc (m.frames.map Frame.fragment)) :
    ∃ acc', receiveAll acc m.frames = ⟨m.delivered.toList.map FrameCall.of,
      if m.Aborts then .error .assertion else .ok acc'⟩ := by
  by_cases hlen : m.payload.length < SLICE_SIZE
  · -- one complete frame
    refine ⟨acc, ?_⟩
    rw [m.receiveAll_frames_short acc hlen, delivered, if_pos hlen,
      if_neg (m.not_aborts_of_lt hlen)]
    rfl
  have hlen' : SLICE_SIZE ≤ m.payload.length := Nat.le_of_not_lt hlen
  have hdiv : 0 < m.payload.length / SLICE_SIZE := Nat.div_pos hlen' (by decide)
  have hbounds := m.slice_bounds
  rw [delivered, if_neg hlen]
  by_cases hlast : 0 < m.lastlen
  · -- full slices and a partial one
    rcases Nat.exists_eq_succ_of_ne_zero (Nat.ne_of_gt hdiv) with ⟨n, hn⟩
    have hslice : m.slice = n + 1 + 1 := by rw [slice, if_pos hlast, hn]
    have hfrag := m.fragment_sliceFrame_last (i := n + 1) (by omega) (by omega)
    have ha : (m.sliceFrame (n + 1)).Accepted :=
      m.accepted_sliceFrame hlen' (by omega) (by rw [m.sliceSize_last (by omega)]; exact hlast)
    have haborts : ¬m.Aborts := fun h => Nat.ne_of_gt hlast h.2
    rcases m.receiveAll_lastSlice hlen' hslice hfit with ⟨hroom, heq⟩
    refine ⟨(m.sliceFrame (n + 1)).fragment.keep (m.payload.take ((n + 1) * SLICE_SIZE)), ?_⟩
    rw [heq, receive_ok ha hroom, hfrag, if_pos hlast, if_neg haborts, hn]
    rfl
  rw [if_neg hlast]
  by_cases hone : m.payload.length = SLICE_SIZE
  · -- the only slice is left open
    have hslice : m.slice = 1 := by rw [slice, if_neg hlast, hone]; decide
    have haborts : ¬m.Aborts := fun h => Nat.ne_of_gt h.1 hone
    rw [m.frames_of_le hlen', hslice] at hfit ⊢
    refine ⟨m.payload.take ((0 + 1) * SLICE_SIZE), ?_⟩
    rw [m.receiveAll_fullSlices acc hlen' 0 (.inl rfl) hfit, if_neg haborts]
    rfl
  · -- an empty last slice
    have haborts : m.Aborts := ⟨by omega, by omega⟩
    obtain ⟨n, hn⟩ : ∃ n, m.payload.length / SLICE_SIZE = n + 1 + 1 := by
      refine ⟨m.payload.length / SLICE_SIZE - 2, ?_⟩
      have hlast0 := haborts.2
      rw [SLICE_SIZE] at *
      omega
    have hslice : m.slice = n + 1 + 1 := by rw [slice, if_neg hlast, hn]
    have hrej : ¬(m.sliceFrame (n + 1)).Accepted :=
      m.not_accepted_sliceFrame hlen' (by omega) (by rw [m.sliceSize_last (by omega), haborts.2])
    refine ⟨[], ?_⟩
    rw [(m.receiveAll_lastSlice hlen' hslice hfit).2, receive_rejected hrej, if_pos haborts]
    rfl

/-- The message is delivered as it was sent: it is not sliced, or its last slice is a partial
one that is either long enough for the 16-bit layout or equal to the start of the slice before
it. -/
def RoundTrips : Prop :=
  m.payload.length < SLICE_SIZE ∨
    (0 < m.lastlen ∧
      (SHORT_LENGTH ≤ m.lastlen ∨
        m.payload.drop (m.payload.length / SLICE_SIZE * SLICE_SIZE) =
          slicePayload m.payload ((m.payload.length / SLICE_SIZE - 1) * SLICE_SIZE) m.lastlen))

instance : Decidable m.RoundTrips := inferInstanceAs (Decidable (_ ∨ _ ∧ (_ ∨ _)))

theorem delivered_eq_iff : m.delivered = some m.payload ↔ m.RoundTrips := by
  rw [delivered, RoundTrips]
  by_cases hlen : m.payload.length < SLICE_SIZE
  · simp [hlen]
  rw [if_neg hlen]
  by_cases hlast : 0 < m.lastlen
  case neg => simp [hlen, hlast]
  have hdiv : 0 < m.payload.length / SLICE_SIZE :=
    Nat.div_pos (Nat.le_of_not_lt hlen) (by decide)
  have hslice : m.slice = m.payload.length / SLICE_SIZE + 1 := if_pos hlast
  have hbounds := m.slice_bounds
  generalize m.payload.length / SLICE_SIZE = whole at *
  have hsplit := List.take_append_drop (whole * SLICE_SIZE) m.payload
  have hdrop : m.payload.drop (whole * SLICE_SIZE) =
      slicePayload m.payload (whole * SLICE_SIZE) m.lastlen := by
    rw [slicePayload, List.take_of_length_le]
    rw [List.length_drop, ← hbounds, Nat.mul_comm]
    omega
  have hcancel (tail : List UInt8) :
      m.payload.take (whole * SLICE_SIZE) ++ tail = m.payload ↔
        m.payload.drop (whole * SLICE_SIZE) = tail := by
    conv_lhs => rhs; rw [← hsplit]
    rw [List.append_cancel_left_eq, eq_comm]
  rw [if_pos hlast, Option.some.injEq, hcancel, or_iff_right hlen, and_iff_right hlast]
  by_cases hshort : SHORT_LENGTH ≤ m.lastlen
  · rw [sliceStart, if_pos (.inr (.inr hshort)), hdrop, iff_true_left rfl]
    exact .inl hshort
  · rw [sliceStart, if_neg (by omega), or_iff_right hshort]

/-- A message that stops the decoder is not delivered. -/
theorem delivered_of_aborts (h : m.Aborts) : m.delivered = none := by
  have hlast : ¬0 < m.lastlen := Nat.not_lt.mpr (Nat.le_of_eq h.2)
  rw [delivered, if_neg (fun hlen => m.not_aborts_of_lt hlen h), if_neg hlast]

end Message

/-- What one call delivers of a sequence of messages. -/
def deliveries : List Message → List (List UInt8)
  | [] => []
  | m :: ms => m.delivered.toList ++ if m.Aborts then [] else deliveries ms

theorem out_receiveAll_framesOf (acc : List UInt8) (msgs : List Message)
    (hfit : Fragment.AllFit MAX_FRAMESIZE acc ((framesOf msgs).map Frame.fragment)) :
    (receiveAll acc (framesOf msgs)).out = (deliveries msgs).map FrameCall.of := by
  induction msgs generalizing acc with
  | nil => rfl
  | cons m ms ih =>
      have hframes : framesOf (m :: ms) = m.frames ++ framesOf ms := List.flatMap_cons
      rw [hframes, List.map_append, Fragment.allFit_append] at hfit
      obtain ⟨hfitm, hfitms⟩ := hfit
      obtain ⟨acc', hm⟩ := m.receiveAll_frames acc hfitm
      rw [hframes, receiveAll_append, deliveries]
      by_cases ha : m.Aborts
      · rw [hm, if_pos ha, if_pos ha, List.append_nil]
        rfl
      · rw [if_neg ha] at hm
        rw [pending_of_receiveAll (by rw [hm])] at hfitms
        rw [hm, if_neg ha, Traced.mk_bind, List.map_append, ih acc' hfitms]

/-- No message is delivered more than once. -/
theorem length_deliveries_le (msgs : List Message) : (deliveries msgs).length ≤ msgs.length := by
  induction msgs with
  | nil => exact Nat.le_refl _
  | cons m ms ih =>
      have hm : m.delivered.toList.length ≤ 1 := by cases m.delivered <;> simp
      rw [deliveries, List.length_append, List.length_cons]
      split
      · rw [List.length_nil]
        omega
      · omega

theorem deliveries_eq_iff (msgs : List Message) :
    deliveries msgs = msgs.map Message.payload ↔ ∀ m ∈ msgs, m.RoundTrips := by
  induction msgs with
  | nil => simp [deliveries]
  | cons m ms ih =>
      rw [List.forall_mem_cons, ← ih, ← m.delivered_eq_iff, deliveries, List.map_cons]
      cases hd : m.delivered with
      | none =>
          -- what the later messages deliver is one short
          have hle := length_deliveries_le ms
          refine ⟨fun h => ?_, fun h => by cases h.1⟩
          have hlen := congrArg List.length h
          split at hlen <;> simp at hlen; omega
      | some payload =>
          have ha : ¬m.Aborts := by
            intro ha
            rw [m.delivered_of_aborts ha] at hd
            cases hd
          simp [ha]

/-- One call of `decodeFrame` on everything that was sent. -/
theorem decodeFrame_sent (mem : Nat → UInt8) (msgs : List Message)
    (h : (sent msgs).length < MAX_FRAMESIZE) :
    (decodeFrame (.new mem) (sent msgs)).out = (deliveries msgs).map FrameCall.of := by
  rw [sent_eq] at h ⊢
  by_cases hne : framesOf msgs = []
  · have hfit : Fragment.AllFit MAX_FRAMESIZE [] ((framesOf msgs).map Frame.fragment) := by
      rw [hne]; trivial
    rw [← out_receiveAll_framesOf [] msgs hfit, hne]
    rfl
  · have hfit : Fragment.AllFit MAX_FRAMESIZE [] ((framesOf msgs).map Frame.fragment) := by
      apply Fragment.allFit_of_length_le
      have hle := length_chunks_le (framesOf msgs)
      rw [List.length_nil]
      omega
    rw [(decodeFrame_wires (.new mem) hne h).out_eq, reassembled_new,
      out_receiveAll_framesOf [] msgs hfit]

/-- Everything that was sent is delivered, in order and unchanged, exactly when every message
round-trips on its own. -/
theorem roundTrip_iff (mem : Nat → UInt8) (msgs : List Message)
    (h : (sent msgs).length < MAX_FRAMESIZE) :
    (decodeFrame (.new mem) (sent msgs)).out = msgs.map (fun m => FrameCall.of m.payload) ↔
      ∀ m ∈ msgs, m.RoundTrips := by
  have hmap : msgs.map (fun m => FrameCall.of m.payload) =
      (msgs.map Message.payload).map FrameCall.of := by rw [List.map_map]; rfl
  rw [decodeFrame_sent mem msgs h, ← deliveries_eq_iff, hmap]
  exact (List.map_injective_iff.mpr FrameCall.of_injective).eq_iff

/-- A text of `n` bytes after a full slice. -/
def tailText (n : Nat) : Message :=
  .text (List.replicate SLICE_SIZE 97 ++ List.replicate n 98)
    (List.append_ne_nil_of_left_ne_nil
      (List.ne_nil_of_length_pos (by rw [List.length_replicate]; decide)) _)

theorem length_tailText (n : Nat) : (tailText n).payload.length = SLICE_SIZE + n := by
  simp [tailText, Message.text]

theorem length_sent_tailText {n : Nat} (h : n < SLICE_SIZE) :
    (sent [tailText n]).length < MAX_FRAMESIZE := by
  have hframes : framesOf [tailText n] = (tailText n).frames := List.append_nil _
  have hslice : (tailText n).slice ≤ 2 := by
    unfold Message.slice
    rw [length_tailText, SLICE_SIZE] at *
    split <;> omega
  have hle := length_wires_le (tailText n).frames
  rw [(tailText n).frames_of_le (by rw [length_tailText]; omega)] at hle hframes
  rw [sent_eq, hframes]
  rw [List.length_map, List.length_range] at hle
  rw [MAX_FRAMESIZE]
  omega

/-- With a tail of 126 bytes it is delivered as it was sent. -/
theorem roundTrip_tailText :
    (decodeFrame (.new fun _ => 0) (sent [tailText 126])).out =
      [FrameCall.of (tailText 126).payload] := by
  apply (roundTrip_iff (fun _ => 0) [tailText 126] (length_sent_tailText (by decide))).mpr
  intro m hm
  rw [List.mem_singleton.mp hm]
  decide +kernel

/-- A tail of 125 bytes is not delivered. -/
theorem not_roundTrip_tailText :
    (decodeFrame (.new fun _ => 0) (sent [tailText 125])).out ≠
      [FrameCall.of (tailText 125).payload] := by
  rw [decodeFrame_sent _ _ (length_sent_tailText (by decide))]
  intro h
  have hmap : deliveries [tailText 125] = [tailText 125].map Message.payload :=
    List.map_injective_iff.mpr FrameCall.of_injective h
  have hround := (deliveries_eq_iff _).mp hmap (tailText 125) (List.mem_singleton_self _)
  exact absurd hround (by decide +kernel)

end WebsocketCpp
