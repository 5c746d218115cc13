import Mathlib.Data.List.Forall2
import WebsocketCpp.Misc.Provenance
import WebsocketCpp.Websocket.Proofs.DecodeRefines

/-!
# No byte is delivered twice

`decodeFrame` clears `frameBuff_` when a FIN=0 frame with opcode text or blob arrives, and not
after it has delivered what it holds (`websocket/WSProtocol.cpp:309-349`, `385-414`). Any frames
are considered here. A payload byte is contained in an invocation of the callback if the
invocation is another one when the byte is another one; no byte is contained in two invocations
exactly when no FIN=1 continuation finds delivered bytes in the buffer (`noByteTwice_iff`).
-/

namespace WebsocketCpp

open Traced Fragment

/-! ## Another byte in a frame -/

/-- The frame with another byte in its payload. -/
def Frame.setByte (f : Frame) (offset : Nat) (b : UInt8) : Frame where
  head := f.head
  key := f.key
  body := f.body.set offset b
  length_key := f.length_key
  payloadLen_le := f.payloadLen_le
  length_body := fun h => List.length_set.trans (f.length_body h)
  length_body_lt := Nat.lt_of_le_of_lt (Nat.le_of_eq List.length_set) f.length_body_lt

/-- What the byte means after unmasking. -/
def Frame.unmasked (f : Frame) (offset : Nat) (b : UInt8) : UInt8 :=
  if f.head.mask = 1 then b ^^^ maskByte (offset % 4) else b

theorem payload_setByte (f : Frame) (offset : Nat) (b : UInt8) :
    (f.setByte offset b).payload = f.payload.set offset (f.unmasked offset b) := by
  by_cases hmask : f.head.mask = 1
  · have hset : (f.setByte offset b).payload = xorMask (f.body.set offset b) := if_pos hmask
    rw [hset, Frame.payload, if_pos hmask, Frame.unmasked, if_pos hmask]
    exact set_cyclicMap 4 (fun pos b => b ^^^ maskByte pos) f.body offset b
  · have hset : (f.setByte offset b).payload = f.body.set offset b := if_neg hmask
    rw [hset, Frame.payload, if_neg hmask, Frame.unmasked, if_neg hmask]

/-- There is a byte that means something else. -/
theorem exists_unmasked_ne (f : Frame) (offset : Nat) (c : UInt8) :
    ∃ b, c ≠ f.unmasked offset b := by
  by_cases h : c = f.unmasked offset 0
  · refine ⟨1, ?_⟩
    intro h'
    rw [h] at h'
    unfold Frame.unmasked at h'
    split at h'
    · exact absurd ((UInt8.xor_left_inj _).mp h') (by decide)
    · exact absurd h' (by decide)
  · exact ⟨0, h⟩

/-- Two frames with the same header and equally long payloads. -/
def SameShape (f g : Frame) : Prop := f.head = g.head ∧ f.body.length = g.body.length

theorem sameShape_setByte (f : Frame) (offset : Nat) (b : UInt8) :
    SameShape f (f.setByte offset b) := ⟨rfl, List.length_set.symm⟩

namespace SameShape

variable {f g : Frame} {fs gs : List Frame}

theorem refl (f : Frame) : SameShape f f := ⟨rfl, rfl⟩

theorem accepted_iff (h : SameShape f g) : f.Accepted ↔ g.Accepted := by
  obtain ⟨hhead, hlen⟩ := h
  have hnil : f.body = [] ↔ g.body = [] := by
    rw [← List.length_eq_zero_iff, hlen, List.length_eq_zero_iff]
  unfold Frame.Accepted
  rw [hhead, Ne, Ne, hnil]

theorem length_wire (h : SameShape f g) : f.wire.length = g.wire.length := by
  obtain ⟨hhead, hlen⟩ := h
  rw [f.length_wire, g.length_wire, Frame.lengthField, Frame.lengthField, hhead, hlen]

theorem alike (h : SameShape f g) : Alike f.fragment g.fragment := by
  obtain ⟨hhead, hlen⟩ := h
  have hpayload : f.payload.length = g.payload.length := by
    rw [f.length_payload, g.length_payload, hlen]
  unfold Frame.fragment
  rw [hhead]
  split <;> split <;> exact hpayload

end SameShape

/-! ## The frames that are received -/

/-- How many frames are received, up to one that is not accepted or does not fit. -/
def receivedCount : List UInt8 → List Frame → Nat
  | _, [] => 0
  | acc, f :: fs =>
    if f.Accepted ∧ f.fragment.Fits MAX_FRAMESIZE acc then
      receivedCount (f.fragment.keep acc) fs + 1
    else 0

theorem out_receiveAll (acc : List UInt8) (fs : List Frame) :
    (receiveAll acc fs).out =
      (replay acc ((fs.map Frame.fragment).take (receivedCount acc fs))).map FrameCall.of := by
  induction fs generalizing acc with
  | nil => rfl
  | cons f fs ih =>
      rw [receiveAll_cons, receivedCount]
      rcases receive_cases acc f with ⟨ha, hf, hok⟩ | ⟨hno, e, -, hfail⟩
      · rw [if_pos ⟨ha, hf⟩, hok, mk_bind, ih, List.map_cons, List.take_succ_cons, replay_cons,
          List.map_append]
      · rw [if_neg hno, hfail]
        rfl

theorem receivedCount_of_sameShape {fs gs : List Frame} (h : List.Forall₂ SameShape fs gs)
    {acc acc' : List UInt8} (hacc : acc.length = acc'.length) :
    receivedCount acc fs = receivedCount acc' gs := by
  induction h generalizing acc acc' with
  | nil => rfl
  | cons hfg _ ih =>
      have hfits := hfg.alike.fits_iff hacc MAX_FRAMESIZE
      simp only [receivedCount, hfg.accepted_iff, hfits, ih (hfg.alike.length_keep hacc)]

theorem alike_of_sameShape {fs gs : List Frame} (h : List.Forall₂ SameShape fs gs) :
    List.Forall₂ Alike (fs.map Frame.fragment) (gs.map Frame.fragment) := by
  rw [List.forall₂_map_left_iff, List.forall₂_map_right_iff]
  exact h.imp fun _ _ hfg => hfg.alike

/-! ## Bytes and invocations -/

/-- A payload byte of the frames that are passed in some calls. -/
structure PayloadByte (calls : List (List Frame)) where
  before : List (List Frame)
  pre : List Frame
  frame : Frame
  post : List Frame
  after : List (List Frame)
  calls_eq : calls = before ++ (pre ++ frame :: post) :: after
  offset : Nat
  offset_lt : offset < frame.body.length

namespace PayloadByte

variable {calls : List (List Frame)}

/-- The calls with another byte in its place. -/
def replace (x : PayloadByte calls) (b : UInt8) : List (List Frame) :=
  x.before ++ (x.pre ++ x.frame.setByte x.offset b :: x.post) :: x.after

/-- The byte is contained in the `k`-th invocation: that one is another one if the byte is. -/
def ContainedIn (x : PayloadByte calls) (mem : Nat → UInt8) (k : Nat) : Prop :=
  ∃ b, (decodeCalls (.new mem) (calls.map wires)).out[k]? ≠
    (decodeCalls (.new mem) ((x.replace b).map wires)).out[k]?

/-- The frames in front of the one with the byte. -/
def front (x : PayloadByte calls) : List Frame := x.before.flatten ++ x.pre

def rest (x : PayloadByte calls) : List Frame := x.post ++ x.after.flatten

/-- How many payload bytes come before it. -/
def number (x : PayloadByte calls) : Nat :=
  ((x.front.map Frame.fragment).flatMap chunk).length + x.offset

variable (x : PayloadByte calls)

theorem flatten_eq : calls.flatten = x.front ++ x.frame :: x.rest := by
  conv_lhs => rw [x.calls_eq]
  simp [front, rest]

theorem flatten_replace (b : UInt8) :
    (x.replace b).flatten = x.front ++ x.frame.setByte x.offset b :: x.rest := by
  simp [replace, front, rest]

theorem sameShape_replace (b : UInt8) :
    List.Forall₂ SameShape calls.flatten (x.replace b).flatten := by
  have hrefl : ∀ fs, List.Forall₂ SameShape fs fs := fun fs =>
    List.forall₂_same.mpr fun f _ => SameShape.refl f
  rw [x.flatten_eq, x.flatten_replace]
  exact List.rel_append (hrefl _) (.cons (sameShape_setByte ..) (hrefl _))

theorem chunks_eq : (calls.flatten.map Frame.fragment).flatMap chunk =
    (x.front.map Frame.fragment).flatMap chunk ++
      (x.frame.payload ++ (x.rest.map Frame.fragment).flatMap chunk) := by
  rw [x.flatten_eq, List.map_append, List.flatMap_append, List.map_cons, List.flatMap_cons,
    Frame.chunk_fragment]

theorem chunks_replace (b : UInt8) :
    ((x.replace b).flatten.map Frame.fragment).flatMap chunk =
      ((calls.flatten.map Frame.fragment).flatMap chunk).set x.number
        (x.frame.unmasked x.offset b) := by
  have hlt : x.offset < x.frame.payload.length := by
    rw [Frame.length_payload]
    exact x.offset_lt
  rw [x.flatten_replace, List.map_append, List.flatMap_append, List.map_cons, List.flatMap_cons,
    Frame.chunk_fragment, payload_setByte, x.chunks_eq, number,
    List.set_append_right _ _ (by omega), Nat.add_sub_cancel_left, List.set_append_left _ _ hlt]

theorem number_lt : x.number < ((calls.flatten.map Frame.fragment).flatMap chunk).length := by
  have hlt := x.offset_lt
  rw [x.chunks_eq, number, List.length_append, List.length_append, Frame.length_payload]
  omega

theorem frameCalls_replace (h : FrameCalls calls) (b : UInt8) : FrameCalls (x.replace b) := by
  obtain ⟨before, pre, frame, post, after, rfl, offset, -⟩ := x
  have hcall : pre ++ frame :: post ∈ before ++ (pre ++ frame :: post) :: after :=
    List.mem_append_right _ (List.mem_cons_self ..)
  have hmem : ∀ c ∈ before ++ (pre ++ frame.setByte offset b :: post) :: after,
      c ∈ before ++ (pre ++ frame :: post) :: after ∨
        c = pre ++ frame.setByte offset b :: post := by
    intro c hc
    rcases List.mem_append.mp hc with hc | hc
    · exact .inl (List.mem_append_left _ hc)
    rcases List.mem_cons.mp hc with hc | hc
    · exact .inr hc
    · exact .inl (List.mem_append_right _ (List.mem_cons_of_mem _ hc))
  constructor
  · intro c hc
    rcases hmem c hc with hc | rfl
    · exact h.nonempty c hc
    · exact List.append_ne_nil_of_right_ne_nil _ (List.cons_ne_nil _ _)
  · intro c hc
    rcases hmem c hc with hc | rfl
    · exact h.length_lt c hc
    · have hlt := h.length_lt _ hcall
      rw [wires_append, wires_cons, List.length_append, List.length_append] at hlt ⊢
      rw [← (sameShape_setByte frame offset b).length_wire]
      exact hlt

end PayloadByte

theorem exists_frame_of_lt {fs : List Frame} {t : Nat}
    (ht : t < ((fs.map Frame.fragment).flatMap chunk).length) :
    ∃ xs f ys offset, fs = xs ++ f :: ys ∧ offset < f.body.length ∧
      ((xs.map Frame.fragment).flatMap chunk).length + offset = t := by
  induction fs generalizing t with
  | nil => exact absurd ht (Nat.not_lt_zero t)
  | cons f fs ih =>
      rw [List.map_cons, List.flatMap_cons, List.length_append, Frame.chunk_fragment,
        Frame.length_payload] at ht
      by_cases hlt : t < f.body.length
      · exact ⟨[], f, fs, t, rfl, hlt, Nat.zero_add t⟩
      · obtain ⟨xs, g, ys, offset, rfl, hoffset, hsum⟩ := ih (t := t - f.body.length) (by omega)
        refine ⟨f :: xs, g, ys, offset, rfl, hoffset, ?_⟩
        rw [List.map_cons, List.flatMap_cons, List.length_append, Frame.chunk_fragment,
          Frame.length_payload]
        omega

/-- Every number of a byte belongs to one. -/
theorem exists_payloadByte {calls : List (List Frame)} {t : Nat}
    (ht : t < ((calls.flatten.map Frame.fragment).flatMap chunk).length) :
    ∃ x : PayloadByte calls, x.number = t := by
  induction calls generalizing t with
  | nil => exact absurd ht (Nat.not_lt_zero t)
  | cons c cs ih =>
      rw [List.flatten_cons, List.map_append, List.flatMap_append, List.length_append] at ht
      by_cases hlt : t < ((c.map Frame.fragment).flatMap chunk).length
      · obtain ⟨xs, f, ys, offset, rfl, hoffset, hsum⟩ := exists_frame_of_lt hlt
        exact ⟨⟨[], xs, f, ys, cs, rfl, offset, hoffset⟩, hsum⟩
      · obtain ⟨x, hx⟩ := ih (t := t - ((c.map Frame.fragment).flatMap chunk).length) (by omega)
        refine ⟨⟨c :: x.before, x.pre, x.frame, x.post, x.after, congrArg (c :: ·) x.calls_eq,
          x.offset, x.offset_lt⟩, ?_⟩
        simp only [PayloadByte.number, PayloadByte.front, List.flatten_cons, List.append_assoc,
          List.map_append, List.flatMap_append, List.length_append] at hx ⊢
        omega

/-! ## The whole run -/

/-- The fragments that are received in a run, as a number of the first ones. -/
theorem out_decodeCalls (mem : Nat → UInt8) {calls : List (List Frame)} (h : FrameCalls calls) :
    (decodeCalls (.new mem) (calls.map wires)).out =
      (replay [] ((calls.flatten.map Frame.fragment).take
        (receivedCount [] calls.flatten))).map FrameCall.of := by
  rw [(decodeCalls_wires (.new mem) h).out_eq, reassembled_new, out_receiveAll]

/-- An invocation contains a byte if the delivery is made of it. -/
theorem containedIn_iff (mem : Nat → UInt8) {calls : List (List Frame)} (h : FrameCalls calls)
    (x : PayloadByte calls) (k : Nat) :
    x.ContainedIn mem k ↔ ∃ m, (sources (calls.flatten.map Frame.fragment)
      (receivedCount [] calls.flatten))[k]? = some m ∧ x.number ∈ m := by
  have hlt := x.number_lt
  have hne : ∀ b, (decodeCalls (.new mem) (calls.map wires)).out[k]? ≠
      (decodeCalls (.new mem) ((x.replace b).map wires)).out[k]? ↔
      (∃ m, (sources (calls.flatten.map Frame.fragment)
        (receivedCount [] calls.flatten))[k]? = some m ∧ x.number ∈ m) ∧
      ((calls.flatten.map Frame.fragment).flatMap chunk)[x.number] ≠
        x.frame.unmasked x.offset b := by
    intro b
    have hshape := x.sameShape_replace b
    rw [out_decodeCalls mem h, out_decodeCalls mem (x.frameCalls_replace h b),
      ← receivedCount_of_sameShape hshape rfl, List.getElem?_map, List.getElem?_map,
      (Option.map_injective FrameCall.of_injective).ne_iff]
    exact getElem?_replay_ne_iff (numbers_of_alike (alike_of_sameShape hshape) 0).symm hlt
      (x.chunks_replace b) _ k
  constructor
  · rintro ⟨b, hb⟩
    exact ((hne b).mp hb).1
  · intro hm
    obtain ⟨b, hb⟩ := exists_unmasked_ne x.frame x.offset
      (((calls.flatten.map Frame.fragment).flatMap chunk)[x.number])
    exact ⟨b, (hne b).mpr ⟨hm, hb⟩⟩

/-- No payload byte is contained in two invocations. -/
def NoByteTwice (mem : Nat → UInt8) (calls : List (List Frame)) : Prop :=
  ∀ (x : PayloadByte calls) (k k' : Nat), x.ContainedIn mem k → x.ContainedIn mem k' → k = k'

theorem noByteTwice_iff_disjoint (mem : Nat → UInt8) {calls : List (List Frame)}
    (h : FrameCalls calls) :
    NoByteTwice mem calls ↔ (sources (calls.flatten.map Frame.fragment)
      (receivedCount [] calls.flatten)).Pairwise List.Disjoint := by
  rw [List.pairwise_iff_getElem]
  constructor
  · intro hno i j hi hj hij t hti htj
    obtain ⟨x, rfl⟩ := exists_payloadByte (lt_of_mem_sources (List.getElem_mem hi) hti)
    have hxi := (containedIn_iff mem h x i).mpr ⟨_, List.getElem?_eq_getElem hi, hti⟩
    have hxj := (containedIn_iff mem h x j).mpr ⟨_, List.getElem?_eq_getElem hj, htj⟩
    exact Nat.ne_of_lt hij (hno x i j hxi hxj)
  · intro hdisj x k k' hk hk'
    obtain ⟨m, hm, hxm⟩ := (containedIn_iff mem h x k).mp hk
    obtain ⟨m', hm', hxm'⟩ := (containedIn_iff mem h x k').mp hk'
    obtain ⟨hlt, rfl⟩ := List.getElem?_eq_some_iff.mp hm
    obtain ⟨hlt', rfl⟩ := List.getElem?_eq_some_iff.mp hm'
    rcases Nat.lt_trichotomy k k' with hkk | hkk | hkk
    · exact absurd hxm' (hdisj k k' hlt hlt' hkk hxm)
    · exact hkk
    · exact absurd hxm (hdisj k' k hlt' hlt hkk hxm')

/-- No byte is delivered twice exactly if no FIN=1 continuation that is received finds bytes in the
buffer that have been delivered. -/
theorem noByteTwice_iff (mem : Nat → UInt8) (calls : List (List Frame)) (h : FrameCalls calls) :
    NoByteTwice mem calls ↔
      DeliversOnce 0 0 ((calls.flatten.map Frame.fragment).take
        (receivedCount [] calls.flatten)) := by
  rw [noByteTwice_iff_disjoint mem h, pairwise_disjoint_sources_iff]

/-- The first fragment of a text, of one byte. -/
def textPart : Frame := .long 0 .eTextFrame 0 [65] (by decide)

/-- A final fragment of one byte. -/
def finalPart (b : UInt8) : Frame :=
  .short 1 .eContinueFrame 0 [b] (show 1 < SHORT_LENGTH by decide)

/-- Two texts, with a final fragment each. -/
theorem noByteTwice_twoTexts :
    NoByteTwice (fun _ => 0) [[textPart, finalPart 66], [textPart, finalPart 67]] :=
  (noByteTwice_iff (fun _ => 0) _ ⟨by decide, by decide⟩).mpr (by decide)

/-- A text with two final fragments is delivered with each of them. -/
theorem not_noByteTwice_repeatedFinal :
    ¬NoByteTwice (fun _ => 0) [[textPart, finalPart 66], [finalPart 67]] := by
  rw [noByteTwice_iff_disjoint _ ⟨by decide, by decide⟩, pairwise_disjoint_sources_iff]
  decide

end WebsocketCpp
