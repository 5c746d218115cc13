import WebsocketCpp.Websocket.Proofs.EncodeFrames
import WebsocketCpp.Websocket.Proofs.FreshDecoder

/-!
# The receive paths of the server and the client

`WebSocketServer::onConnMessage` (`websocket/WebSocketServer.cpp:60-69`) gives every read a
`WSProtocol` of its own, `WSNet::onConnMessage` (`websocket/WSNet.cpp:96-105`) keeps one. On reads
of whole frames sent by `encodeFrame` the two pass on the same messages exactly when no read
begins with continuation frames that complete a message (`serverClient_iff`): the server has
forgotten what came before them.
-/

namespace WebsocketCpp

open Traced Fragment

/-! ## What `encodeFrame` sends -/

namespace Message

variable (m : Message)

/-- The full slices of a message. -/
theorem run_fullSlices {ph : Phase} (hph : ph ≠ .inside) (n : Nat) (hn : n = 0 ∨ n + 1 < m.slice) :
    ph.run (((List.range (n + 1)).map m.sliceFrame).map Frame.fragment) =
      some (if n = 0 then .started else .inside) := by
  induction n with
  | zero =>
      have hfrag := m.fragment_sliceFrame_zero
      cases ph with
      | inside => exact absurd rfl hph
      | idle | started => simp [List.range_succ, hfrag, Phase.next, Phase.run]
  | succ n ih =>
      have hfrag := m.fragment_sliceFrame_middle (i := n + 1) (by omega) (by omega)
      rw [List.range_succ, List.map_append, List.map_append, Phase.run_append, ih (by omega)]
      simp only [List.map_singleton, hfrag, Option.bind_some, Phase.run_cons]
      by_cases h0 : n = 0 <;> simp [h0, Phase.next, Phase.run]

/-- A message is sent after a message, or after one that was left open. -/
theorem run_frames {ph : Phase} (hph : ph ≠ .inside) :
    ∃ ph', ph' ≠ .inside ∧ ph.run (m.frames.map Frame.fragment) = some ph' := by
  by_cases hlen : m.payload.length < SLICE_SIZE
  · refine ⟨.idle, by decide, ?_⟩
    rw [m.frames_of_lt hlen, List.map_singleton, m.fragment_dataFrame]
    cases ph with
    | inside => exact absurd rfl hph
    | idle | started => rfl
  have hlen' : SLICE_SIZE ≤ m.payload.length := Nat.le_of_not_lt hlen
  obtain ⟨s, hs⟩ : ∃ s, m.slice = s + 1 :=
    Nat.exists_eq_succ_of_ne_zero (Nat.ne_of_gt (m.slice_pos hlen'))
  rw [m.frames_of_le hlen', hs]
  cases s with
  | zero => exact ⟨.started, by decide, m.run_fullSlices hph 0 (.inl rfl)⟩
  | succ n =>
      refine ⟨.idle, by decide, ?_⟩
      have hfrag := m.fragment_sliceFrame_last (i := n + 1) (by omega) (by omega)
      rw [List.range_succ, List.map_append, List.map_append, Phase.run_append,
        m.run_fullSlices hph n (by omega)]
      simp only [List.map_singleton, hfrag, Option.bind_some, Phase.run_cons]
      by_cases h0 : n = 0 <;> simp [h0, Phase.next, Phase.run]

end Message

theorem run_framesOf (msgs : List Message) {ph : Phase} (hph : ph ≠ .inside) :
    ∃ ph', ph.run ((framesOf msgs).map Frame.fragment) = some ph' := by
  induction msgs generalizing ph with
  | nil => exact ⟨ph, rfl⟩
  | cons m ms ih =>
      obtain ⟨ph1, hph1, hrun⟩ := m.run_frames hph
      obtain ⟨ph2, hrest⟩ := ih hph1
      refine ⟨ph2, ?_⟩
      have hframes : framesOf (m :: ms) = m.frames ++ framesOf ms := List.flatMap_cons
      rw [hframes, List.map_append, Phase.run_append, hrun]
      exact hrest

/-! ## The two receive paths -/

/-- Socket reads of whole frames, in the order `encodeFrame` emits them for a sequence of messages.
The last messages may not have been read completely. -/
structure WholeFrameReads (msgs : List Message) extends FrameReads where
  sent : cuts.flatten <+: framesOf msgs

theorem keptCalls_eq_freshCalls_of_sent {msgs : List Message} (w : WholeFrameReads msgs) :
    (keptCalls [] w.cuts).out = (freshCalls w.cuts).out ↔ NoOrphanFinal w.cuts := by
  obtain ⟨rest, hrest⟩ := w.sent
  obtain ⟨ph, hrun⟩ := run_framesOf msgs (show Phase.idle ≠ .inside by decide)
  rw [← hrest, List.map_append, Phase.run_append] at hrun
  obtain ⟨ph', hph', -⟩ := Option.bind_eq_some_iff.mp hrun
  refine keptCalls_eq_freshCalls_iff hph' ?_ w.ne_nil fun h => absurd rfl h
  intro f hf
  exact mask_framesOf (w.sent.subset hf)

/-- Server and client pass on the same messages exactly if no read they get to begins with
continuation frames that complete a message. -/
theorem serverClient_iff {msgs : List Message} (w : WholeFrameReads msgs)
    (serverConn clientConn : NetConnection) (mem : Nat → UInt8) :
    (WebSocketServer.handleReads serverConn w.reads).out =
        (WSNet.handleReads ⟨clientConn, .new mem⟩ w.reads).out ↔
      NoOrphanFinal w.cuts := by
  rw [out_handleReads_server serverConn w.toFrameReads,
    out_handleReads_client ⟨clientConn, .new mem⟩ w.toFrameReads, reassembled_new, eq_comm]
  exact keptCalls_eq_freshCalls_of_sent w

/-- A text of two slices. -/
def twoSlices : Message :=
  .text (List.replicate 700 97) (List.ne_nil_of_length_pos (by rw [List.length_replicate]; decide))

theorem length_twoSlices : twoSlices.payload.length = 700 := List.length_replicate

theorem slice_twoSlices : twoSlices.slice = 2 := by
  rw [Message.slice, Message.lastlen, length_twoSlices]
  decide

/-- Its frames come in a read each. -/
def splitReads : WholeFrameReads [twoSlices] where
  reads := [⟨(twoSlices.sliceFrame 0).wire, (twoSlices.sliceFrame 0).wire_ne_nil,
      ⟨0, fun _ => 0⟩, fun _ => 0⟩,
    ⟨(twoSlices.sliceFrame 1).wire, (twoSlices.sliceFrame 1).wire_ne_nil,
      ⟨0, fun _ => 0⟩, fun _ => 0⟩]
  cuts := [[twoSlices.sliceFrame 0], [twoSlices.sliceFrame 1]]
  data_eq := by simp
  sent := by
    have hframes : framesOf [twoSlices] = twoSlices.frames := List.append_nil _
    rw [hframes, twoSlices.frames_of_le (by rw [length_twoSlices]; decide), slice_twoSlices]
    exact List.prefix_refl _

/-- The second read begins with the final frame of the message. -/
theorem not_noOrphanFinal_splitReads : ¬NoOrphanFinal splitReads.cuts := by
  have hlen : ∀ f : Frame, (wires [f]).length < MAX_FRAMESIZE := length_wires_singleton_lt
  have haccepted : ∀ i < 2, (twoSlices.sliceFrame i).Accepted := by
    intro i hi
    apply twoSlices.accepted_sliceFrame (by rw [length_twoSlices]; decide)
      (by rw [slice_twoSlices]; exact hi)
    rw [Message.sliceSize, Message.lastlen, length_twoSlices]
    split <;> decide
  have hfrag := twoSlices.fragment_sliceFrame_last (i := 1) (by decide)
    (Nat.le_of_eq slice_twoSlices)
  intro hno
  have hrest := (hno (hlen _)).2 fun f hf => by
    rw [List.mem_singleton.mp hf]
    exact haccepted 0 (by decide)
  exact (hrest (hlen _)).1 ⟨haccepted 1 (by decide), by rw [hfrag]; trivial⟩

/-- The server passes on its last 200 bytes as a message, the client all of it. -/
theorem serverClient_splitReads :
    (WebSocketServer.handleReads (.new ⟨0, fun _ => 0⟩ false) splitReads.reads).out ≠
      (WSNet.handleReads ⟨.new ⟨0, fun _ => 0⟩ false, .new fun _ => 0⟩ splitReads.reads).out := by
  rw [out_handleReads_server _ splitReads.toFrameReads,
    out_handleReads_client _ splitReads.toFrameReads]
  intro h
  exact not_noOrphanFinal_splitReads ((keptCalls_eq_freshCalls_of_sent splitReads).mp h.symm)

end WebsocketCpp
