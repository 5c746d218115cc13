import WebsocketCpp.Websocket.Proofs.DecodeFront

/-!
# The key in the frame

A masked frame carries the key it was masked with. `decodeFrame` steps over these four bytes, or
reads them into a variable it never uses (`websocket/WSProtocol.cpp:399`), and `computeUnMask` unmasks with
`MASK_CODE`. What a peer has masked with its own key arrives as long as that key happens to agree
with `MASK_CODE` where it is used (`delivers_iff`).
-/

namespace WebsocketCpp

open Traced (Sim)

/-- Byte `i` of the data masked with byte `i mod 4` of the key. -/
def xorKey (key data : List UInt8) : List UInt8 :=
  cyclicMap 4 (fun pos b => b ^^^ key.getD pos 0) data

@[simp] theorem length_xorKey (key data : List UInt8) : (xorKey key data).length = data.length :=
  length_cyclicMap ..

namespace Frame

/-- What a sender has masked with the key of the frame: masking twice gives it back. -/
def original (f : Frame) : List UInt8 := xorKey f.key f.body

@[simp] theorem length_original (f : Frame) : f.original.length = f.body.length := length_xorKey ..

/-- The key is that of `MASK_CODE`, as far as the payload uses it. -/
def KeyAgrees (f : Frame) : Prop := ∀ i, i < 4 → i < f.body.length → f.key.getD i 0 = maskByte i

theorem payload_eq_original_iff {f : Frame} (hmask : f.head.mask = 1) :
    f.payload = f.original ↔ f.KeyAgrees := by
  rw [payload, if_pos hmask, original, xorMask, xorKey, cyclicMap_eq_iff]
  refine ⟨?_, ?_⟩
  · intro h i hi hlen
    have hat := h i hlen
    rw [Nat.mod_eq_of_lt hi] at hat
    exact ((UInt8.xor_right_inj _).mp hat).symm
  · intro h i hlen
    rw [h (i % 4) (Nat.mod_lt _ (by decide)) (Nat.lt_of_le_of_lt (Nat.mod_le ..) hlen)]

end Frame

/-- The frames of one masked message: a text or blob frame with FIN == 1, or fragments. -/
inductive DataMessage : List Frame → Prop
  | whole (f : Frame) : f.head.FIN = 1 →
      f.head.Opcode = OpCode.eTextFrame.code ∨ f.head.Opcode = OpCode.eBlobFrame.code →
      DataMessage [f]
  | fragments (f : Frame) (gs : List Frame) (h : Frame) : f.head.FIN ≠ 1 →
      f.head.Opcode = OpCode.eTextFrame.code ∨ f.head.Opcode = OpCode.eBlobFrame.code →
      (∀ g ∈ gs, g.head.FIN ≠ 1 ∧ g.head.Opcode = OpCode.eContinueFrame.code) →
      h.head.FIN = 1 → h.head.Opcode = OpCode.eContinueFrame.code →
      DataMessage (f :: (gs ++ [h]))

/-- The calls make the decoder deliver what was masked with the keys in the frames, and nothing
else. -/
def Delivers (p : WSProtocol) (calls : List (List Frame)) : Prop :=
  (decodeCalls p (calls.map wires)).out =
    [FrameCall.of (calls.flatten.flatMap Frame.original)]

/-! ## What arrives -/

theorem flatMap_eq_iff {α β : Type} {f g : α → List β} {xs : List α}
    (h : ∀ x ∈ xs, (f x).length = (g x).length) :
    xs.flatMap f = xs.flatMap g ↔ ∀ x ∈ xs, f x = g x := by
  induction xs with
  | nil => simp
  | cons x xs ih =>
      rw [List.forall_mem_cons] at h ⊢
      rw [List.flatMap_cons, List.flatMap_cons, ← ih h.2]
      constructor
      · exact fun heq => List.append_inj heq h.1
      · rintro ⟨hx, hxs⟩
        rw [hx, hxs]

/-- Of frames that complete nothing before the last one, a decoder delivers all or nothing. -/
theorem out_receiveAll_concat {fs : List Frame} {f : Frame}
    (hs : ∀ g ∈ fs, g.fragment.completes = false) (acc : List UInt8)
    (hrec : ¬Received acc (fs ++ [f])) : (receiveAll acc (fs ++ [f])).out = [] := by
  induction fs generalizing acc with
  | nil =>
      rw [List.nil_append, receiveAll_singleton]
      rcases receive_cases acc f with ⟨ha, hf, -⟩ | ⟨-, e, -, hfail⟩
      · exact absurd (received_cons.mpr ⟨⟨ha, hf⟩, received_nil _⟩) hrec
      · rw [hfail]
        rfl
  | cons g fs ih =>
      rw [List.forall_mem_cons] at hs
      rw [List.cons_append, receiveAll_cons]
      rcases receive_cases acc g with ⟨ha, hf, hok⟩ | ⟨-, e, -, hfail⟩
      · have hrest : ¬Received (g.fragment.keep acc) (fs ++ [f]) := by
          intro hrest
          exact hrec (received_cons.mpr ⟨⟨ha, hf⟩, hrest⟩)
        rw [hok, Traced.mk_bind, Fragment.emits_of_not_completes hs.1, ih hs.2 _ hrest]
        rfl
      · rw [hfail]
        rfl

theorem DataMessage.completes_dropLast {fs : List Frame} (h : DataMessage fs) :
    ∃ gs f, fs = gs ++ [f] ∧ ∀ g ∈ gs, g.fragment.completes = false := by
  cases h with
  | whole f hfin hop => exact ⟨[], f, rfl, by simp⟩
  | fragments f gs h hfin hop hgs hfinLast hopLast =>
      refine ⟨f :: gs, h, rfl, ?_⟩
      rw [List.forall_mem_cons]
      refine ⟨?_, ?_⟩
      · rw [Frame.fragment_first hfin hop]
        rfl
      · intro g hg
        rcases hgs g hg with ⟨hfin', hop'⟩
        rw [Frame.fragment_middle hfin' (by rw [hop']; decide)]
        rfl

theorem ne_continue {op : BitVec 4} (h : op = OpCode.eTextFrame.code ∨ op = OpCode.eBlobFrame.code) :
    op ≠ OpCode.eContinueFrame.code := by
  rcases h with rfl | rfl <;> decide

theorem fragment_middles {gs : List Frame}
    (h : ∀ g ∈ gs, g.head.FIN ≠ 1 ∧ g.head.Opcode = OpCode.eContinueFrame.code) :
    gs.map Frame.fragment = (gs.map Frame.payload).map Fragment.middle := by
  rw [List.map_map]
  apply List.map_congr_left
  intro g hg
  rcases h g hg with ⟨hfin, hop⟩
  exact Frame.fragment_middle hfin (by rw [hop]; decide)

/-- The frames of a message carry its payload, and find room if that does. -/
theorem DataMessage.replay_allFit {fs : List Frame} (h : DataMessage fs) (acc : List UInt8) :
    Fragment.replay acc (fs.map Frame.fragment) = [fs.flatMap Frame.payload] ∧
      (Fragment.AllFit MAX_FRAMESIZE acc (fs.map Frame.fragment) ↔
        (fs.flatMap Frame.payload).length ≤ MAX_FRAMESIZE) := by
  cases h with
  | whole f hfin hop =>
      have hlen := f.length_body_lt
      have hfrag := Frame.fragment_whole hfin (ne_continue hop)
      rw [List.map_singleton, hfrag, List.flatMap_singleton, f.length_payload]
      refine ⟨rfl, iff_of_true ⟨trivial, trivial⟩ ?_⟩
      rw [MAX_FRAMESIZE]
      omega
  | fragments f gs h hfin hop hgs hfinLast hopLast =>
      have hpieces : (f :: (gs ++ [h])).map Frame.fragment =
          Fragment.pieces f.payload (gs.map Frame.payload) h.payload := by
        rw [List.map_cons, List.map_append, List.map_singleton, fragment_middles hgs,
          Frame.fragment_first hfin hop, Frame.fragment_last hfinLast hopLast]
        rfl
      have hpayload : (f :: (gs ++ [h])).flatMap Frame.payload =
          f.payload ++ (gs.map Frame.payload).flatten ++ h.payload := by
        simp [List.flatMap_def]
      rw [hpieces, hpayload]
      exact ⟨Fragment.replay_pieces .., Fragment.allFit_pieces⟩

theorem out_receiveAll_dataMessage {fs : List Frame} (h : DataMessage fs) (acc payload : List UInt8) :
    (receiveAll acc fs).out = [FrameCall.of payload] ↔
      Received acc fs ∧ fs.flatMap Frame.payload = payload := by
  by_cases hrec : Received acc fs
  · rw [receiveAll_ok hrec.1 hrec.2, (h.replay_allFit acc).1, and_iff_right hrec]
    simp only [List.map_singleton, List.cons.injEq, and_true]
    exact FrameCall.of_injective.eq_iff
  · refine iff_of_false ?_ fun h => hrec h.1
    rcases h.completes_dropLast with ⟨gs, f, rfl, hgs⟩
    rw [out_receiveAll_concat hgs acc hrec]
    intro hnil
    cases hnil

/-- A masked message arrives as its sender meant it exactly if it finds room in the buffer, its frames
pass the assertions, and their keys agree with `MASK_CODE`. -/
theorem delivers_iff (p : WSProtocol) (calls : List (List Frame)) (h : FrameCalls calls)
    (hmsg : DataMessage calls.flatten) (hmask : ∀ f ∈ calls.flatten, f.head.mask = 1) :
    Delivers p calls ↔
      (calls.flatten.flatMap Frame.original).length ≤ MAX_FRAMESIZE ∧
        ∀ f ∈ calls.flatten, f.Accepted ∧ f.KeyAgrees := by
  have hlen : ∀ f ∈ calls.flatten, f.payload.length = f.original.length := by
    intro f _
    rw [f.length_payload, f.length_original]
  have hsize : (calls.flatten.flatMap Frame.payload).length =
      (calls.flatten.flatMap Frame.original).length := by
    rw [List.length_flatMap, List.length_flatMap]
    exact congrArg List.sum (List.map_congr_left hlen)
  have hkeys : calls.flatten.flatMap Frame.payload = calls.flatten.flatMap Frame.original ↔
      ∀ f ∈ calls.flatten, f.KeyAgrees := by
    rw [flatMap_eq_iff hlen]
    exact forall₂_congr fun f hf => Frame.payload_eq_original_iff (hmask f hf)
  rw [Delivers, (decodeCalls_wires p h).out_eq, out_receiveAll_dataMessage hmsg, hkeys, Received,
    (hmsg.replay_allFit p.reassembled).2, hsize]
  simp only [forall₂_and]
  tauto

/-- A text masked with `MASK_CODE`. -/
theorem delivers_maskCode :
    Delivers (.new fun _ => 0) [[.short 1 .eTextFrame 1 [0x63] (by decide)]] := by
  have hmsg : DataMessage [.short 1 .eTextFrame 1 [0x63] (by decide)] := .whole _ rfl (.inl rfl)
  apply (delivers_iff _ [[_]] ⟨by decide, by decide⟩ hmsg (by decide)).mpr
  unfold Frame.KeyAgrees
  decide

/-- A text of one byte, masked with a key of its own. -/
def ownKeyText : Frame where
  head := ⟨1, 0, OpCode.eTextFrame.code, 1, 1⟩
  key := [1, 2, 3, 4]
  body := xorKey [1, 2, 3, 4] [0x61]
  length_key := rfl
  payloadLen_le := by decide
  length_body := fun _ => rfl
  length_body_lt := by decide

/-- It arrives as another byte. -/
theorem not_delivers_ownKeyText : ¬Delivers (.new fun _ => 0) [[ownKeyText]] := by
  unfold Delivers
  decide

end WebsocketCpp
