import WebsocketCpp.Websocket.Proofs.DecodeRefines
import WebsocketCpp.Websocket.Proofs.ReceivePath

/-!
# Uninitialised memory stays inside

`new unsigned char[MAX_FRAMESIZE]` leaves `frameBuff_` with whatever the heap held
(`websocket/WSProtocol.cpp:14-18`). Two decoders are compared that agree on the bytes below
`framePos_`, which are those that were copied there. They stay in step on any input
(`decodeFrame_agree`), so what was in the buffer before never reaches the callback
(`out_decodeCalls_new`).
-/

namespace WebsocketCpp

open Traced (Sim)

/-- The decoders have the same bytes in use; the rest of their buffers is anything. -/
def Agree (p q : WSProtocol) : Prop := p.reassembled = q.reassembled

theorem Agree.framePos_eq {p q : WSProtocol} (h : Agree p q) : p.framePos = q.framePos := by
  rw [← length_reassembled p, ← length_reassembled q, h]

theorem agree_new (mem mem' : Nat → UInt8) : Agree (.new mem) (.new mem') := rfl

theorem agree_clear (p q : WSProtocol) : Agree p.clear q.clear := rfl

/-- A copy appends the same bytes to both buffers, or stops in both. -/
theorem copyPayload_agree {p q : WSProtocol} (h : Agree p q) (payl : List UInt8) (payll : Nat) :
    Sim Agree (p.copyPayload payl payll) (q.copyPayload payl payll) := by
  have hpos := h.framePos_eq
  by_cases hread : payll ≤ payl.length
  case neg =>
    simp only [WSProtocol.copyPayload, Traced.require_false hread, Traced.fail_bind]
    exact Sim.fail _
  have hlen : (payl.take payll).length = payll := List.length_take_of_le hread
  have hsplit : payl = payl.take payll ++ payl.drop payll := (List.take_append_drop ..).symm
  by_cases hfit : p.framePos + payll ≤ MAX_FRAMESIZE
  · have hfit' : q.framePos + payll ≤ MAX_FRAMESIZE := hpos ▸ hfit
    have hp := copyPayload_fits p (payl.take payll) (payl.drop payll) (by rw [hlen]; exact hfit)
    have hq := copyPayload_fits q (payl.take payll) (payl.drop payll) (by rw [hlen]; exact hfit')
    rw [← hsplit, hlen] at hp hq
    rcases hp with ⟨p', hp', hre, -⟩
    rcases hq with ⟨q', hq', hre', -⟩
    rw [hp', hq']
    apply Sim.pure
    unfold Agree
    rw [hre, hre', h]
  · have hfit' : ¬q.framePos + payll ≤ MAX_FRAMESIZE := hpos ▸ hfit
    simp only [WSProtocol.copyPayload, Traced.require_true hread, Traced.require_false hfit,
      Traced.require_false hfit', pure_bind, Traced.fail_bind]
    exact Sim.fail _

/-- A first fragment clears both buffers, every other payload goes behind what they have in use. -/
theorem deliver_agree {p q : WSProtocol} (h : Agree p q) (header : WSHead) (payl : List UInt8)
    (payll : Nat) : Sim Agree (deliver p header payl payll) (deliver q header payl payll) := by
  unfold deliver
  by_cases hfin : header.FIN = 1
  · rw [if_pos hfin, if_pos hfin]
    by_cases hop : header.Opcode = OpCode.eContinueFrame.code
    · rw [if_pos hop, if_pos hop]
      apply Sim.bind (copyPayload_agree h payl payll)
      intro p' q' hpq
      rw [show p'.reassembled = q'.reassembled from hpq, hpq.framePos_eq]
      exact Sim.ok hpq
    · rw [if_neg hop, if_neg hop]
      exact Sim.ok h
  · rw [if_neg hfin, if_neg hfin]
    split
    · exact copyPayload_agree (agree_clear p q) payl payll
    · exact copyPayload_agree h payl payll

/-- An iteration reads of the buffer only what is in use. -/
theorem decodeIter_agree {p q : WSProtocol} (h : Agree p q) (data : List UInt8) :
    Sim (fun a b => Agree a.1 b.1 ∧ a.2 = b.2) (decodeIter p data) (decodeIter q data) := by
  rw [decodeIter_eq, decodeIter_eq]
  apply Sim.bind (Sim.refl (payloadSection data))
  rintro ⟨header, payl, payll, rest⟩ _ rfl
  apply Sim.bind (Sim.refl (unmaskPayload header payl payll))
  rintro payl' _ rfl
  apply Sim.bind (deliver_agree h header payl' payll)
  intro p' q' hpq
  exact Sim.pure ⟨hpq, rfl⟩

theorem decodeLoop_agree {p q : WSProtocol} (h : Agree p q) (n : Nat) (data : List UInt8) :
    Sim Agree (decodeLoop n p data) (decodeLoop n q data) := by
  induction n generalizing p q data with
  | zero => exact Sim.fail _
  | succ n ih =>
      apply Sim.bind (decodeIter_agree h data)
      rintro ⟨p', next⟩ ⟨q', _⟩ ⟨hpq, rfl⟩
      cases next with
      | none => exact Sim.pure hpq
      | some rest => exact ih hpq rest

/-- A call keeps two decoders in step, whatever it is given. -/
theorem decodeFrame_agree {p q : WSProtocol} (h : Agree p q) (data : List UInt8) :
    Sim Agree (decodeFrame p data) (decodeFrame q data) := by
  apply Sim.bind (Sim.refl _)
  rintro _ _ -
  exact decodeLoop_agree h (data.length + 1) data

theorem decodeCalls_agree {p q : WSProtocol} (h : Agree p q) (calls : List (List UInt8)) :
    Sim Agree (decodeCalls p calls) (decodeCalls q calls) :=
  Sim.foldlM (fun _ _ data _ hpq => decodeFrame_agree hpq data) h

/-- What a new decoder delivers does not depend on what its buffer held before. -/
theorem out_decodeCalls_new (mem mem' : Nat → UInt8) (calls : List (List UInt8)) :
    (decodeCalls (.new mem) calls).out = (decodeCalls (.new mem') calls).out :=
  (decodeCalls_agree (agree_new mem mem') calls).out_eq

/-- The server, which takes new memory for every read, delivers the same whatever is in it. -/
theorem WebSocketServer.out_handleReads_heap (conn : NetConnection) {reads reads' : List SocketRead}
    (h : reads.map SocketRead.data = reads'.map SocketRead.data) :
    (handleReads conn reads).out = (handleReads conn reads').out := by
  rw [(handleReads_sim conn reads).out_eq, (handleReads_sim conn reads').out_eq]
  induction reads generalizing reads' with
  | nil =>
      rw [List.map_nil, eq_comm, List.map_eq_nil_iff] at h
      rw [h]
  | cons r rs ih =>
      cases reads' with
      | nil => cases h
      | cons r' rs' =>
          rw [List.map_cons, List.map_cons, List.cons.injEq] at h
          rcases h with ⟨hr, hrs⟩
          have hsim : Sim Agree (decodeFrame (.new r.heap) r.data)
              (decodeFrame (.new r'.heap) r'.data) := by
            rw [hr]
            exact decodeFrame_agree (agree_new ..) r'.data
          rw [List.foldlM_cons, List.foldlM_cons, bind_assoc, bind_assoc]
          cases hres : (decodeFrame (.new r.heap) r.data).result with
          | error e =>
              have hres' := (hsim.error_iff e).mp hres
              rw [Traced.bind_of_error hres, Traced.bind_of_error hres']
              exact hsim.out_eq
          | ok p =>
              rcases hsim.ok_left hres with ⟨q, hres', -⟩
              rw [Traced.bind_of_ok hres, Traced.bind_of_ok hres', hsim.out_eq]
              exact congrArg (_ ++ ·) (ih hrs)

end WebsocketCpp
