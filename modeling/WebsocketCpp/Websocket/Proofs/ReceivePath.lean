import WebsocketCpp.Base.Proofs.BufferQueue
import WebsocketCpp.Websocket.Proofs.DecodeRefines
import WebsocketCpp.Websocket.WSNet
import WebsocketCpp.Websocket.WebSocketServer

/-!
# From the socket to the decoder

`handleRead` resets the read buffer before it reads, and the message callbacks take everything
out of it (`net/NetConnection.cpp:37-61`, `websocket/WSNet.cpp:96-105`,
`websocket/WebSocketServer.cpp:60-69`): a read is a call of `decodeFrame` on the bytes that were
delivered, nothing more and nothing less.
-/

namespace WebsocketCpp

open Traced

/-- What is read into the connection's buffer is what the message callback takes out of it. -/
theorem handleRead_readAll (conn : NetConnection) (r : SocketRead) :
    ∃ conn' readBuffer, conn.handleRead r = .ok conn' ∧
      conn'.readBuffer.readAll = .ok (r.data, readBuffer) := by
  obtain ⟨b1, hb1, hholds⟩ := Buffer.readfd_reset_spec conn.readBuffer r.data r.alloc
  obtain ⟨b2, hb2, -⟩ := Buffer.readAll_spec hholds
  refine ⟨{ conn with readBuffer := b1 }, b2, ?_, hb2⟩
  rw [NetConnection.handleRead, hb1]
  rfl

theorem WSNet.handleRead_sim (net : WSNet) (r : SocketRead) :
    Sim (fun net' p => net'.proto = p) (net.handleRead r) (decodeFrame net.proto r.data) := by
  obtain ⟨conn', readBuffer, hread, hall⟩ := handleRead_readAll net.conn r
  rw [WSNet.handleRead, hread, ofExcept_ok, pure_bind, onConnMessage, hall, ofExcept_ok, pure_bind,
    ← bind_pure (decodeFrame net.proto r.data)]
  apply Sim.bind (Sim.refl _)
  intro p q hpq
  exact Sim.pure hpq

/-- The client decodes its reads with one object. -/
theorem WSNet.handleReads_sim (net : WSNet) (reads : List SocketRead) :
    Sim (fun net' p => net'.proto = p) (net.handleReads reads)
      (decodeCalls net.proto (reads.map SocketRead.data)) := by
  rw [WSNet.handleReads, decodeCalls, List.foldlM_map]
  refine Sim.foldlM (R := fun (net' : WSNet) p => net'.proto = p) ?_ rfl
  intro net' p r _ hp
  rw [← hp]
  exact net'.handleRead_sim r

theorem WebSocketServer.handleRead_sim (conn : NetConnection) (r : SocketRead) :
    Sim (fun _ _ => True) (handleRead conn r) (decodeFrame (.new r.heap) r.data) := by
  obtain ⟨conn', readBuffer, hread, hall⟩ := handleRead_readAll conn r
  rw [handleRead, hread, ofExcept_ok, pure_bind, onConnMessage, hall, ofExcept_ok, pure_bind,
    ← bind_pure (decodeFrame (.new r.heap) r.data)]
  apply Sim.bind (Sim.refl _)
  intro p q _
  exact Sim.pure trivial

/-- The server decodes every read with an object of its own. -/
theorem WebSocketServer.handleReads_sim (conn : NetConnection) (reads : List SocketRead) :
    Sim (fun _ _ => True) (handleReads conn reads)
      (reads.foldlM (fun _ r => decodeFrame (.new r.heap) r.data >>= fun _ => pure ()) ()) := by
  refine Sim.foldlM (R := fun _ _ => True) ?_ trivial
  intro conn' _ r _ _
  rw [← bind_pure (handleRead conn' r)]
  apply Sim.bind (WebSocketServer.handleRead_sim conn' r)
  intro _ _ _
  exact Sim.pure trivial

/-! ## Reads of whole frames -/

/-- One call of `decodeFrame` on complete frames, over the bytes reassembled so far. -/
def receiveCall (acc : List UInt8) (c : List Frame) : Decode (List UInt8) := do
  Traced.require ((wires c).length < MAX_FRAMESIZE) .assertion
  receiveAll acc c

theorem receiveCall_of_lt {c : List Frame} (h : (wires c).length < MAX_FRAMESIZE)
    (acc : List UInt8) : receiveCall acc c = receiveAll acc c := by
  rw [receiveCall, require_true h, pure_bind]

theorem receiveCall_of_le {c : List Frame} (h : ¬(wires c).length < MAX_FRAMESIZE)
    (acc : List UInt8) : receiveCall acc c = Traced.fail .assertion := by
  rw [receiveCall, require_false h, fail_bind]

theorem decodeFrame_receiveCall (p : WSProtocol) {c : List Frame} (hne : c ≠ []) :
    Sim Holds (decodeFrame p (wires c)) (receiveCall p.reassembled c) := by
  by_cases hlen : (wires c).length < MAX_FRAMESIZE
  · rw [receiveCall_of_lt hlen]
    exact decodeFrame_wires p hne hlen
  · rw [receiveCall_of_le hlen, decodeFrame, require_false hlen, fail_bind]
    exact Sim.fail _

/-- The calls on a decoder that is kept. -/
def keptCalls (acc : List UInt8) (cuts : List (List Frame)) : Decode (List UInt8) :=
  cuts.foldlM receiveCall acc

/-- The calls on a new decoder each. -/
def freshCalls (cuts : List (List Frame)) : Decode Unit :=
  cuts.foldlM (fun _ c => receiveCall [] c >>= fun _ => pure ()) ()

theorem keptCalls_cons (acc : List UInt8) (c : List Frame) (cs : List (List Frame)) :
    keptCalls acc (c :: cs) = receiveCall acc c >>= fun acc' => keptCalls acc' cs := rfl

theorem freshCalls_cons (c : List Frame) (cs : List (List Frame)) :
    freshCalls (c :: cs) = receiveCall [] c >>= fun _ => freshCalls cs := by
  rw [freshCalls, List.foldlM_cons, bind_assoc]
  rfl

/-- Socket reads that consist of one or more whole frames each. -/
structure FrameReads where
  reads : List SocketRead
  cuts : List (List Frame)
  data_eq : reads.map SocketRead.data = cuts.map wires

theorem FrameReads.ne_nil (w : FrameReads) : ∀ c ∈ w.cuts, c ≠ [] := by
  rintro c hc rfl
  have hwire : wires [] ∈ w.reads.map SocketRead.data := by
    rw [w.data_eq]
    exact List.mem_map_of_mem hc
  obtain ⟨r, -, hr⟩ := List.mem_map.mp hwire
  exact r.nonempty hr

theorem out_handleReads_client (net : WSNet) (w : FrameReads) :
    (net.handleReads w.reads).out = (keptCalls net.proto.reassembled w.cuts).out := by
  rw [(net.handleReads_sim w.reads).out_eq, w.data_eq, decodeCalls, List.foldlM_map]
  apply Sim.out_eq
  refine Sim.foldlM (R := Holds) ?_ rfl
  intro p acc c hc hp
  rw [← hp]
  exact decodeFrame_receiveCall p (w.ne_nil c hc)

theorem out_handleReads_server (conn : NetConnection) (w : FrameReads) :
    (WebSocketServer.handleReads conn w.reads).out = (freshCalls w.cuts).out := by
  rw [(WebSocketServer.handleReads_sim conn w.reads).out_eq]
  have hne := w.ne_nil
  obtain ⟨reads, cuts, hdata⟩ := w
  dsimp only at hne ⊢
  have hsim : Sim (fun _ _ => True)
      (reads.foldlM (fun _ r => decodeFrame (.new r.heap) r.data >>= fun _ => pure ()) ())
      (freshCalls cuts) := by
    induction reads generalizing cuts with
    | nil =>
        rw [List.map_nil, eq_comm, List.map_eq_nil_iff] at hdata
        rw [hdata]
        exact Sim.pure trivial
    | cons r rs ih =>
        cases cuts with
        | nil => cases hdata
        | cons c cs =>
            rw [List.map_cons, List.map_cons, List.cons.injEq] at hdata
            obtain ⟨hr, hrs⟩ := hdata
            rw [freshCalls_cons, List.foldlM_cons, bind_assoc, hr]
            apply Sim.bind (decodeFrame_receiveCall (.new r.heap) (hne c (List.mem_cons_self ..)))
            intro _ _ _
            rw [pure_bind]
            exact ih cs hrs fun d hd => hne d (List.mem_cons_of_mem _ hd)
  exact hsim.out_eq

end WebsocketCpp
