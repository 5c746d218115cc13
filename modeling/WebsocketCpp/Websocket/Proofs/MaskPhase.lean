import WebsocketCpp.Websocket.Proofs.DecodeRefines
import WebsocketCpp.Websocket.Proofs.EncodeFrames

/-!
# The phase of the key

`encodeFrame` masks the whole payload once and copies the slices out of it afterwards
(`websocket/WSProtocol.cpp:163-228`), and `decodeFrame` unmasks every frame from the first byte of the key on.
Both copies of a last slice start at a multiple of `SLICE_SIZE`, and so of the key, so that each frame
unmasks to a block of the payload (`encode_carriesBlock`).
-/

namespace WebsocketCpp

/-- The `i`-th buffer of a message is one frame with the payload section `payl`, which unmasks to `block`
on its own. There is no call of `computeUnMask` that returns for an empty section. -/
structure CarriesBlock (m : Message) (i : Nat) (buff : List UInt8) (header : WSHead)
    (payl block : List UInt8) : Prop where
  located : payloadSection buff = pure (header, payl, payl.length, [])
  masked : header.mask = 1
  fromPhaseZero : block = xorMask payl
  unmasked : payl ≠ [] → unmaskPayload header payl payl.length = pure block
  contiguous : block <:+: m.payload
  full : header.FIN = 0 → SLICE_SIZE * i + SLICE_SIZE ≤ m.payload.length ∧
    block = (m.payload.drop (SLICE_SIZE * i)).take SLICE_SIZE
  last : SLICE_SIZE ≤ m.payload.length → SHORT_LENGTH ≤ m.payload.length % SLICE_SIZE →
    i + 1 = m.encode.out.length →
    block = m.payload.drop (m.payload.length - m.payload.length % SLICE_SIZE)

theorem slicePayload_infix (payload : List UInt8) (off n : Nat) :
    slicePayload payload off n <:+: payload :=
  (List.take_prefix ..).isInfix.trans (List.drop_suffix ..).isInfix

namespace Message

variable (m : Message)

theorem payloadLen_frames {f : Frame} (hf : f ∈ m.frames) (hfin : f.head.FIN ≠ 1) :
    f.head.PayloadLen.toNat = SHORT_LENGTH := by
  by_cases hlen : m.payload.length < SLICE_SIZE
  · rw [m.frames_of_lt hlen, List.mem_singleton] at hf
    subst hf
    exact absurd rfl hfin
  · have hle := Nat.le_of_not_lt hlen
    rw [m.frames_of_le hle, List.mem_map] at hf
    rcases hf with ⟨i, hi, rfl⟩
    exact m.payloadLen_sliceFrame hle (List.mem_range.mp hi) hfin

/-- Every frame carries a block of the payload. -/
theorem payload_frames_infix {f : Frame} (hf : f ∈ m.frames) : f.payload <:+: m.payload := by
  by_cases hlen : m.payload.length < SLICE_SIZE
  · rw [m.frames_of_lt hlen, List.mem_singleton] at hf
    subst hf
    have hpayload := m.fragment_dataFrame (m.length_xorMask_lt hlen)
    rw [← Frame.chunk_fragment, hpayload]
    exact List.infix_refl _
  · rw [m.frames_of_le (Nat.le_of_not_lt hlen), List.mem_map] at hf
    rcases hf with ⟨i, _, rfl⟩
    rw [m.payload_sliceFrame]
    exact slicePayload_infix ..

/-- A frame with FIN == 0 carries the full slice of its number. -/
theorem payload_frames_full {i : Nat} {f : Frame} (hf : m.frames[i]? = some f)
    (hfin : f.head.FIN = 0) : SLICE_SIZE * i + SLICE_SIZE ≤ m.payload.length ∧
      f.payload = (m.payload.drop (SLICE_SIZE * i)).take SLICE_SIZE := by
  by_cases hlen : m.payload.length < SLICE_SIZE
  · rw [m.frames_of_lt hlen, List.getElem?_singleton] at hf
    split at hf
    · cases hf
      exact absurd hfin (by simp [dataFrame])
    · cases hf
  · have hle := Nat.le_of_not_lt hlen
    rcases m.eq_sliceFrame_of_getElem? hle hf with ⟨hi, rfl⟩
    have hfull : i = 0 ∨ i + 1 < m.slice := by
      by_contra h
      have hone : (m.sliceFrame i).head.FIN = 1 := if_neg h
      rw [hone] at hfin
      exact absurd hfin (by decide)
    have hstart : m.sliceStart i = SLICE_SIZE * i :=
      (m.sliceStart_full hfull).trans (Nat.mul_comm ..)
    have hbound := m.sliceStart_add_sliceSize_le hle hi
    rw [hstart, m.sliceSize_full hfull] at hbound
    rw [m.payload_sliceFrame, hstart, m.sliceSize_full hfull]
    exact ⟨hbound, rfl⟩

/-- A last slice that needs the 16-bit length is the rest of the payload. -/
theorem payload_frames_last {i : Nat} {f : Frame} (hle : SLICE_SIZE ≤ m.payload.length)
    (hrest : SHORT_LENGTH ≤ m.lastlen) (hf : m.frames[i]? = some f) (hi : i + 1 = m.slice) :
    f.payload = m.payload.drop (m.payload.length - m.lastlen) := by
  have hb := m.slice_bounds
  have hslice : m.slice = m.payload.length / SLICE_SIZE + 1 :=
    if_pos (Nat.lt_of_lt_of_le (by decide) hrest)
  have hlast : ¬(i = 0 ∨ i + 1 < m.slice) := by
    have hdiv : 0 < m.payload.length / SLICE_SIZE := Nat.div_pos hle (by decide)
    omega
  have hnum : i = m.payload.length / SLICE_SIZE := by omega
  have hstart : m.sliceStart i = m.payload.length - m.lastlen := by
    have hmul : m.sliceStart i = i * SLICE_SIZE := if_pos (.inr (.inr hrest))
    rw [hmul, hnum, Nat.mul_comm]
    omega
  rw [(m.eq_sliceFrame_of_getElem? hle hf).2, m.payload_sliceFrame, m.sliceSize_last hlast, hstart,
    slicePayload]
  apply List.take_of_length_le
  rw [List.length_drop]
  omega

theorem out_encode : m.encode.out = m.frames.map Frame.wire := congrArg Traced.out m.encode_eq

/-- There is a frame for each slice. -/
theorem length_out_encode (hle : SLICE_SIZE ≤ m.payload.length) :
    m.encode.out.length = m.slice := by
  rw [out_encode, List.length_map, m.frames_of_le hle, List.length_map, List.length_range]

theorem getElem?_encode {i : Nat} (hle : SLICE_SIZE ≤ m.payload.length) (hi : i < m.slice) :
    m.encode.out[i]? = some (m.sliceFrame i).wire := by
  rw [out_encode, m.frames_of_le hle, List.getElem?_map, List.getElem?_map, List.getElem?_range hi,
    Option.map_some, Option.map_some]

/-- Each buffer that `encodeFrame` emits for a text or blob unmasks on its own to a block of the payload:
the slice of its number if FIN == 0, and the rest for a last slice that needs the 16-bit length. -/
theorem encode_carriesBlock (i : Nat) (buff : List UInt8) (h : m.encode.out[i]? = some buff) :
    ∃ header payl block, CarriesBlock m i buff header payl block := by
  rw [out_encode, List.getElem?_map, Option.map_eq_some_iff] at h
  rcases h with ⟨f, hf, rfl⟩
  have hmem := List.mem_of_getElem? hf
  have hmask := m.mask_frames hmem
  have hblock : f.payload = xorMask f.body := if_pos hmask
  refine ⟨f.head, f.body, f.payload, ?_⟩
  exact {
    located := by
      have hsection := payloadSection_wire (m.payloadLen_frames hmem) []
      rwa [List.append_nil, List.append_nil] at hsection
    masked := hmask
    fromPhaseZero := hblock
    unmasked := by
      intro hne
      have hunmask := unmaskPayload_body f [] fun _ => hne
      rwa [List.append_nil, List.append_nil] at hunmask
    contiguous := m.payload_frames_infix hmem
    full := m.payload_frames_full hf
    last := by
      intro hle hrest hi
      rw [m.length_out_encode hle] at hi
      exact m.payload_frames_last hle hrest hf hi }

/-- A full slice of `0x61`, and 126 bytes of `0x62`. -/
def cutPayload : List UInt8 := List.replicate SLICE_SIZE 0x61 ++ List.replicate SHORT_LENGTH 0x62

theorem length_cutPayload : cutPayload.length = SLICE_SIZE + SHORT_LENGTH := by
  rw [cutPayload, List.length_append, List.length_replicate, List.length_replicate]

/-- A text that is cut, with a last slice that needs the 16-bit length. -/
def cutText : Message :=
  text cutPayload (List.ne_nil_of_length_pos (length_cutPayload ▸ by decide))

theorem encode_carriesBlock_cutText : ∃ buff header payl, cutText.encode.out[1]? = some buff ∧
    CarriesBlock cutText 1 buff header payl (List.replicate SHORT_LENGTH 0x62) := by
  have hlen : cutText.payload.length = SLICE_SIZE + SHORT_LENGTH := length_cutPayload
  have hrem : cutText.payload.length % SLICE_SIZE = SHORT_LENGTH := hlen ▸ by decide
  have hle : SLICE_SIZE ≤ cutText.payload.length := hlen ▸ Nat.le_add_right ..
  have hslice : cutText.slice = 2 := by
    rw [slice, lastlen, hrem, hlen]
    decide
  have hbuff : cutText.encode.out[1]? = some (cutText.sliceFrame 1).wire :=
    cutText.getElem?_encode hle (hslice ▸ by decide)
  rcases encode_carriesBlock cutText 1 _ hbuff with ⟨header, payl, block, hblock⟩
  have hrest : block = List.replicate SHORT_LENGTH 0x62 := by
    have hlast := hblock.last hle (Nat.le_of_eq hrem.symm) (by
      rw [cutText.length_out_encode hle, hslice])
    rw [hrem, hlen, Nat.add_sub_cancel] at hlast
    calc block = cutPayload.drop SLICE_SIZE := hlast
      _ = List.replicate SHORT_LENGTH 0x62 := List.drop_left' List.length_replicate
  exact ⟨_, header, payl, hbuff, hrest ▸ hblock⟩

end Message

end WebsocketCpp
