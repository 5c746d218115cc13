import WebsocketCpp.Websocket.Proofs.DecodeRefines

/-!
# Frames of which a part is missing

`decodeFrame` never asks whether the rest of a frame has arrived (`WSProtocol.cpp:300-418`): at
the front of a frame that is cut off it reads on, past the bytes it was given. Only behind the
header of a masked frame without payload does it stop before, at the assertion in
`computeUnMask`.
-/

namespace WebsocketCpp

open Traced (Sim)

namespace Frame

/-- What `encodeFrame` keeps to: frames are masked, fragments have the 16-bit length, and that
length is never 0. -/
structure Emitted (f : Frame) : Prop where
  mask_eq : f.head.mask = 1
  fragment_long : f.head.FIN ≠ 1 → f.head.PayloadLen.toNat = SHORT_LENGTH
  long_ne_nil : f.head.PayloadLen.toNat = SHORT_LENGTH → f.body ≠ []

/-- Such a frame is turned down only if it has no payload. -/
theorem Emitted.accepted_iff {f : Frame} (h : f.Emitted) : f.Accepted ↔ f.body ≠ [] :=
  ⟨fun ha => ha.2 h.mask_eq, fun hne => ⟨h.fragment_long, fun _ => hne⟩⟩

/-- How many bytes of a frame the decoder asks for. -/
def reach (f : Frame) : Nat := if f.body = [] then 2 else f.wire.length

theorem reach_of_ne_nil {f : Frame} (h : f.body ≠ []) : f.reach = f.wire.length := if_neg h

theorem reach_of_nil {f : Frame} (h : f.body = []) : f.reach = 2 := if_pos h

end Frame

/-! ## Reading what is not there -/

theorem readHead_short {data : List UInt8} (h : data.length < 2) :
    readHead data = Traced.fail .readPastEnd := by
  match data, h with
  | [], _ => rfl
  | [_], _ => rfl

theorem readUShort_short {data : List UInt8} (h : data.length < 2) :
    readUShort data = Traced.fail .readPastEnd := by
  match data, h with
  | [], _ => rfl
  | [_], _ => rfl

theorem readUInt_short {data : List UInt8} (h : data.length < 4) :
    readUInt data = Traced.fail .readPastEnd := by
  match data, h with
  | [], _ => rfl
  | [_], _ => rfl
  | [_, _], _ => rfl
  | [_, _, _], _ => rfl

theorem readHead_append {data : List UInt8} (h : 2 ≤ data.length) (rest : List UInt8) :
    readHead (data ++ rest) = readHead data := by
  match data, h with
  | _ :: _ :: _, _ => rfl

theorem readUShort_append {data : List UInt8} (h : 2 ≤ data.length) (rest : List UInt8) :
    readUShort (data ++ rest) = readUShort data := by
  match data, h with
  | _ :: _ :: _, _ => rfl

/-! ## The front of a frame -/

section

variable {f : Frame} {tail missing : List UInt8}

theorem readHead_front (hw : f.wire = tail ++ missing) (h : 2 ≤ tail.length) :
    readHead tail = pure f.head := by
  have hread := readHead_wire f []
  rw [List.append_nil, hw, readHead_append h] at hread
  exact hread

theorem readUShort_front (hw : f.wire = tail ++ missing)
    (hl : f.head.PayloadLen.toNat = SHORT_LENGTH) (h : 4 ≤ tail.length) :
    readUShort (tail.drop 2) = pure f.body.length := by
  have hfield : f.lengthField = ushortBytes f.body.length := if_pos hl
  have hdrop := drop_lengthField f []
  rw [List.append_nil, List.append_nil, hfield, hw,
    List.drop_append_of_le_length (Nat.le_trans (by decide) h)] at hdrop
  have hlen : 2 ≤ (tail.drop 2).length := by
    rw [List.length_drop]
    omega
  rw [← readUShort_append hlen missing, hdrop]
  exact readUShort_ushortBytes f.length_body_lt _

theorem readUInt_front {tail : List UInt8} (h : 8 ≤ tail.length) :
    ∃ mask, readUInt (tail.drop (2 + 2)) = pure mask := by
  have hlen : 4 ≤ (tail.drop (2 + 2)).length := by
    rw [List.length_drop]
    omega
  match tail.drop (2 + 2), hlen with
  | _ :: _ :: _ :: _ :: _, _ => exact ⟨_, rfl⟩

/-- Unmasking the payload of a masked frame fails when a part of it is missing. -/
theorem unmaskPayload_front (hmask : f.head.mask = 1) {payl : List UInt8}
    (h : payl.length < f.body.length) :
    unmaskPayload f.head payl f.body.length = Traced.fail .readPastEnd := by
  rw [unmaskPayload, if_pos hmask]
  exact maskInPlace_short h

theorem length_front (hw : f.wire = tail ++ missing) (hm : missing ≠ []) :
    tail.length < 6 + f.lengthField.length + f.body.length := by
  have hlen := congrArg List.length hw
  rw [f.length_wire, List.length_append] at hlen
  have hpos := List.length_pos_iff.mpr hm
  omega

/-- Locating the payload of a masked frame and unmasking it. -/
theorem locate_unmask_front (he : f.Emitted) (hw : f.wire = tail ++ missing) (hm : missing ≠ [])
    {β : Type} (k : List UInt8 × Nat × List UInt8 → List UInt8 → Decode β) :
    (locatePayload f.head tail >>= fun found =>
      unmaskPayload f.head found.1 found.2.1 >>= fun payl => k found payl) =
    Traced.fail (if f.body = [] then .assertion else .readPastEnd) := by
  have hlen := length_front hw hm
  rcases Nat.lt_or_eq_of_le f.payloadLen_le with hlt | heq
  · have hfield : f.lengthField = [] := if_neg (Nat.ne_of_lt hlt)
    rw [hfield, List.length_nil] at hlen
    rw [locatePayload, if_pos hlt, ← f.length_body hlt, pure_bind]
    dsimp only
    by_cases hb : f.body = []
    · rw [if_pos hb, unmaskPayload_empty f _ he.mask_eq hb, Traced.fail_bind]
    · have hpos := List.length_pos_iff.mpr hb
      rw [if_neg hb, unmaskPayload_front he.mask_eq, Traced.fail_bind]
      rw [List.length_drop]
      omega
  · have hfield : f.lengthField = ushortBytes f.body.length := if_pos heq
    have hb := he.long_ne_nil heq
    have hpos := List.length_pos_iff.mpr hb
    rw [hfield, show (ushortBytes f.body.length).length = 2 from rfl] at hlen
    rw [locatePayload, if_neg (by omega), if_pos heq, if_neg hb]
    by_cases hshort : tail.length < 4
    · rw [readUShort_short (by rw [List.length_drop]; omega), Traced.fail_bind, Traced.fail_bind]
    · rw [readUShort_front hw heq (by omega), pure_bind, pure_bind]
      dsimp only
      rw [unmaskPayload_front he.mask_eq, Traced.fail_bind]
      rw [List.length_drop]
      omega

/-- An iteration at the front of a frame that is cut off. -/
theorem decodeIter_front (he : f.Emitted) (hw : f.wire = tail ++ missing) (hm : missing ≠ [])
    (p : WSProtocol) :
    decodeIter p tail =
      Traced.fail (if tail.length < f.reach then .readPastEnd else .assertion) := by
  have hlen := length_front hw hm
  have hwire : tail.length < f.wire.length := by
    rw [f.length_wire]
    exact hlen
  by_cases hhead : tail.length < 2
  · have hreach : tail.length < f.reach := by
      unfold Frame.reach
      split <;> omega
    rw [if_pos hreach, decodeIter, readHead_short hhead, Traced.fail_bind]
  have hfault : (if tail.length < f.reach then Fault.readPastEnd else .assertion) =
      if f.body = [] then .assertion else .readPastEnd := by
    by_cases hb : f.body = []
    · rw [if_pos hb, Frame.reach_of_nil hb, if_neg hhead]
    · rw [if_neg hb, Frame.reach_of_ne_nil hb, if_pos hwire]
  rw [hfault, decodeIter, readHead_front hw (by omega), pure_bind]
  by_cases hfin : f.head.FIN = 1
  · rw [if_pos hfin]
    by_cases hop : f.head.Opcode = OpCode.eContinueFrame.code
    · simp only [if_pos hop]
      exact locate_unmask_front he hw hm _
    · simp only [if_neg hop]
      exact locate_unmask_front he hw hm _
  · have hl := he.fragment_long hfin
    have hb := he.long_ne_nil hl
    have hpos := List.length_pos_iff.mpr hb
    have hfield : f.lengthField.length = 2 := by
      rw [Frame.lengthField, if_pos hl]
      rfl
    rw [if_neg hfin, if_neg hb, Traced.require_true hl, pure_bind]
    by_cases hshort : tail.length < 4
    · rw [readUShort_short (by rw [List.length_drop]; omega), Traced.fail_bind]
    rw [readUShort_front hw hl (by omega), pure_bind]
    by_cases hkey : tail.length < 8
    · rw [readUInt_short (by rw [List.length_drop]; omega), Traced.fail_bind]
    obtain ⟨mask, hread⟩ := readUInt_front (Nat.le_of_not_lt hkey)
    rw [hread, pure_bind, unmaskPayload_front he.mask_eq, Traced.fail_bind]
    rw [List.length_drop]
    omega

/-- A call on complete frames and the front of another one. -/
theorem decodeFrame_front (he : f.Emitted) (hw : f.wire = tail ++ missing) (hm : missing ≠ [])
    (htail : tail ≠ []) (p : WSProtocol) (gs : List Frame)
    (hlen : (wires gs ++ tail).length < MAX_FRAMESIZE) :
    Sim Holds (decodeFrame p (wires gs ++ tail))
      (receiveAll p.reassembled gs >>= fun _ =>
        Traced.fail (if tail.length < f.reach then .readPastEnd else .assertion)) := by
  apply decodeFrame_wires_append p gs htail hlen
  intro q m hpos
  obtain ⟨n, rfl⟩ : ∃ n, m = n + 1 := ⟨m - 1, by omega⟩
  rw [decodeLoop, decodeIter_front he hw hm q, Traced.fail_bind]
  exact Sim.fail _

end

end WebsocketCpp
