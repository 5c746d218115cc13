import WebsocketCpp.Websocket.Proofs.DecodeRefines

/-!
# What the decoder delivers

On a sequence of well-formed frames whose fragmented messages follow the grammar, in any
interleaving with unfragmented ones and cut into calls at any frame boundaries, the callback
sees the messages of the stream: one invocation for each frame with `FIN == 1`, in order.
The state of the object before the first frame does not matter.
-/

namespace WebsocketCpp

/-- A frame as the protocol of `WSProtocol.cpp` has it: a payload that is not empty, and a
fragment with the 16-bit length and opcode text, blob or continuation. -/
structure Frame.WellFormed (f : Frame) : Prop where
  nonempty : f.body ≠ []
  fragment : f.head.FIN ≠ 1 → f.head.PayloadLen.toNat = SHORT_LENGTH ∧
    (f.head.Opcode = OpCode.eTextFrame.code ∨ f.head.Opcode = OpCode.eBlobFrame.code ∨
      f.head.Opcode = OpCode.eContinueFrame.code)

theorem Frame.WellFormed.accepted {f : Frame} (h : f.WellFormed) : f.Accepted :=
  ⟨fun hfin => (h.fragment hfin).1, fun _ => h.nonempty⟩

/-- A frame completes a message exactly when its FIN bit is set. -/
theorem completes_fragment (f : Frame) : f.fragment.completes = decide (f.head.FIN = 1) := by
  by_cases hfin : f.head.FIN = 1
  · rw [decide_eq_true hfin]
    by_cases hop : f.head.Opcode = OpCode.eContinueFrame.code
    · rw [Frame.fragment_last hfin hop]; rfl
    · rw [Frame.fragment_whole hfin hop]; rfl
  · rw [decide_eq_false hfin]
    by_cases hop : f.head.Opcode = OpCode.eTextFrame.code ∨ f.head.Opcode = OpCode.eBlobFrame.code
    · rw [Frame.fragment_first hfin hop]; rfl
    · rw [Frame.fragment_middle hfin hop]; rfl

/-- The decoder on frames that are all accepted and all find room. -/
theorem decodeCalls_replay (p : WSProtocol) {calls : List (List Frame)} (h : FrameCalls calls)
    (ha : ∀ f ∈ calls.flatten, f.Accepted)
    (hf : Fragment.AllFit MAX_FRAMESIZE p.reassembled (calls.flatten.map Frame.fragment)) :
    (decodeCalls p (calls.map wires)).out =
      (Fragment.replay p.reassembled (calls.flatten.map Frame.fragment)).map FrameCall.of ∧
    ∃ q, (decodeCalls p (calls.map wires)).result = .ok q ∧
      q.reassembled = Fragment.pending p.reassembled (calls.flatten.map Frame.fragment) := by
  have hsim := decodeCalls_wires p h
  rw [receiveAll_ok ha hf] at hsim
  obtain ⟨q, hq, hre⟩ := hsim.ok_right rfl
  exact ⟨hsim.out_eq, q, hq, hre⟩

/-- Frame-level semantics of the decoder. -/
theorem decodeCalls_messages (p : WSProtocol) (calls : List (List Frame)) (h : FrameCalls calls)
    (hwf : ∀ f ∈ calls.flatten, f.WellFormed)
    (hg : Fragment.Grammatical false (calls.flatten.map Frame.fragment))
    (hm : ∀ m ∈ Fragment.messages [] (calls.flatten.map Frame.fragment), m.length ≤ MAX_FRAMESIZE)
    (ho : (Fragment.opened [] (calls.flatten.map Frame.fragment)).length ≤ MAX_FRAMESIZE) :
    (decodeCalls p (calls.map wires)).out =
      (Fragment.messages [] (calls.flatten.map Frame.fragment)).map FrameCall.of ∧
    (decodeCalls p (calls.map wires)).out.length = calls.flatten.countP (·.head.FIN = 1) ∧
    ∃ q, (decodeCalls p (calls.map wires)).result = .ok q := by
  have hfit := (Fragment.allFit_of_grammatical MAX_FRAMESIZE _ [] hm ho).1 hg p.reassembled
  obtain ⟨hout, q, hq, -⟩ := decodeCalls_replay p h (fun f hf => (hwf f hf).accepted) hfit
  refine ⟨?_, ?_, q, hq⟩
  · rw [hout, (Fragment.replay_of_grammatical _ []).1 hg]
  · rw [hout, List.length_map, Fragment.length_replay, List.countP_map]
    apply List.countP_congr
    intro f _
    simp [completes_fragment]

/-- A blob message in three fragments with a masked ping between them, in two calls. -/
def interleavedFrames : List (List Frame) :=
  [[.long 0 .eBlobFrame 0 [10, 11] (by decide), .short 1 .ePingFrame 1 [82] (by decide)],
    [.long 0 .eContinueFrame 1 [14] (by decide), .short 1 .eContinueFrame 0 [13] (by decide)]]

theorem decodeCalls_messages_interleaved :
    (decodeCalls ⟨fun _ => 0xCC, 4000000⟩ (interleavedFrames.map wires)).out =
      [FrameCall.of [80], FrameCall.of [10, 11, 12, 13]] :=
  (decodeCalls_messages ⟨fun _ => 0xCC, 4000000⟩ interleavedFrames
    ⟨by decide, by decide⟩
    (by
      intro f hf
      constructor
      · revert f; decide
      · revert f; decide)
    (by decide) (by decide) (by decide)).1

end WebsocketCpp
