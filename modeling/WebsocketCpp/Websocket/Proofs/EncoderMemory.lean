import WebsocketCpp.Websocket.Proofs.ControlFrames

/-!
# The header on the stack

`WSHead header;` leaves the five bit-fields with what the stack held (`websocket/WSProtocol.cpp:76`). The
text and blob branches assign all of them. Ping and pong leave `RSV`, close leaves `RSV` and `mask`,
and `memcpy` puts them on the wire: `encodesAlike_iff`.
-/

namespace WebsocketCpp

open Traced (Sim)

/-- What is emitted does not depend on which of the two contents the local header held, and control
frames are decoded to the payload with either. -/
structure EncodesAlike (payload : List UInt8) (type : OpCode) (header header' : WSHead) : Prop where
  out_eq : (encodeFrame header payload type).out = (encodeFrame header' payload type).out
  decodes : type = .ePingFrame ∨ type = .ePongFrame ∨ type = .eCloseFrame →
    ∀ h, h = header ∨ h = header' → ∃ buff, (encodeFrame h payload type).out = [buff] ∧
      ∀ mem, (decodeFrame (.new mem) buff).out = [FrameCall.of payload]

/-- Texts and blobs are sent as the same frames whatever the header held. -/
theorem encodeFrame_data (header header' : WSHead) {payload : List UInt8} (hne : payload ≠ [])
    {type : OpCode} (htype : type = .eTextFrame ∨ type = .eBlobFrame) :
    (encodeFrame header payload type).out = (encodeFrame header' payload type).out := by
  have h := (Message.mk header type payload htype hne).encode_eq
  have h' := (Message.mk header' type payload htype hne).encode_eq
  exact congrArg Traced.out (h.trans h'.symm)

theorem controlHead_eq_iff {header header' : WSHead} {type : OpCode} (len : Nat) :
    controlHead header type len = controlHead header' type len ↔
      header.RSV = header'.RSV ∧ (type = .eCloseFrame → header.mask = header'.mask) := by
  simp only [controlHead, WSHead.mk.injEq, true_and, and_true]
  split
  · rename_i htype
    simp [htype]
  · rename_i htype
    simp [htype]

theorem out_encodeFrame_control_iff {header header' : WSHead} {payload : List UInt8}
    (hne : payload ≠ []) {type : OpCode}
    (htype : type = .ePingFrame ∨ type = .ePongFrame ∨ type = .eCloseFrame) :
    (encodeFrame header payload type).out = (encodeFrame header' payload type).out ↔
      header.RSV = header'.RSV ∧ (type = .eCloseFrame → header.mask = header'.mask) := by
  rw [encodeFrame_control header hne htype, encodeFrame_control header' hne htype,
    ← controlHead_eq_iff payload.length, List.cons.injEq, and_iff_left rfl]
  simp only [shortLayout, List.append_cancel_right_eq, List.append_assoc]
  exact toBytes_injective.eq_iff

/-- The receiver unmasks what the header says is masked. -/
theorem decodes_control_iff (header : WSHead) (mem : Nat → UInt8) {payload : List UInt8}
    (hne : payload ≠ []) (hlen : payload.length < SHORT_LENGTH) {type : OpCode}
    (htype : type = .ePingFrame ∨ type = .ePongFrame ∨ type = .eCloseFrame) :
    (decodeFrame (.new mem)
        (shortLayout (controlHead header type payload.length) (xorMask payload))).out =
      [FrameCall.of payload] ↔ (type = .eCloseFrame → header.mask = 1) := by
  have hbody : xorMask payload ≠ [] := fun hnil => hne (xorMask_eq_nil.mp hnil)
  rcases controlFrame_accepted header htype hbody (length_xorMask_lt_short hlen) with ⟨ha, hfrag⟩
  rw [shortLayout_eq_wires header type hlen, (decodeFrame_whole (.new mem) ha hfrag).1,
    List.cons.injEq, and_iff_left rfl, FrameCall.of_injective.eq_iff]
  show (if (if type = .eCloseFrame then header.mask else 1) = (1 : BitVec 1) then
    xorMask (xorMask payload) else xorMask payload) = payload ↔ _
  by_cases hclose : type = .eCloseFrame
  · rw [if_pos hclose]
    by_cases hmask : header.mask = 1
    · rw [if_pos hmask, xorMask_xorMask]
      exact iff_of_true rfl fun _ => hmask
    · rw [if_neg hmask]
      exact iff_of_false (xorMask_ne_self hne) fun h => hmask (h hclose)
  · rw [if_neg hclose, if_pos rfl, xorMask_xorMask]
    exact iff_of_true rfl fun h => absurd h hclose

theorem encodesAlike_control_iff {payload : List UInt8} (hne : payload ≠ [])
    (hshort : payload.length < SHORT_LENGTH) {type : OpCode}
    (hcontrol : type = .ePingFrame ∨ type = .ePongFrame ∨ type = .eCloseFrame)
    (header header' : WSHead) :
    EncodesAlike payload type header header' ↔
      header.RSV = header'.RSV ∧ (type = .eCloseFrame → header.mask = 1 ∧ header'.mask = 1) := by
  constructor
  · rintro ⟨hout, hdec⟩
    have hrsv := (out_encodeFrame_control_iff hne hcontrol).mp hout
    refine ⟨hrsv.1, ?_⟩
    intro hclose
    rcases hdec hcontrol header (.inl rfl) with ⟨buff, hbuff, hdelivered⟩
    rw [encodeFrame_control header hne hcontrol, List.cons.injEq] at hbuff
    rcases hbuff with ⟨rfl, -⟩
    have hset := (decodes_control_iff header _ hne hshort hcontrol).mp
      (hdelivered fun _ => 0) hclose
    exact ⟨hset, (hrsv.2 hclose).symm.trans hset⟩
  · rintro ⟨hrsv, hmask⟩
    refine ⟨?_, ?_⟩
    · refine (out_encodeFrame_control_iff hne hcontrol).mpr ⟨hrsv, ?_⟩
      intro hclose
      exact (hmask hclose).1.trans (hmask hclose).2.symm
    · intro _ h hh
      refine ⟨_, encodeFrame_control h hne hcontrol, ?_⟩
      intro mem
      rw [decodes_control_iff h mem hne hshort hcontrol]
      intro hclose
      rcases hh with rfl | rfl
      · exact (hmask hclose).1
      · exact (hmask hclose).2

/-- What the local header held makes no difference to a text or blob. It makes none to a ping or pong
exactly if the reserved bits were the same, and none to a close frame exactly if they were and the
mask bit was set. -/
theorem encodesAlike_iff (payload : List UInt8) (hne : payload ≠ []) (type : OpCode)
    (htype : type ≠ .eContinueFrame)
    (hlen : type = .ePingFrame ∨ type = .ePongFrame ∨ type = .eCloseFrame → payload.length ≤ 125)
    (header header' : WSHead) :
    EncodesAlike payload type header header' ↔
      (type = .eTextFrame ∨ type = .eBlobFrame) ∨
        (header.RSV = header'.RSV ∧
          (type = .eCloseFrame → header.mask = 1 ∧ header'.mask = 1)) := by
  by_cases hdata : type = .eTextFrame ∨ type = .eBlobFrame
  · refine iff_of_true ⟨encodeFrame_data header header' hne hdata, ?_⟩ (.inl hdata)
    intro hcontrol
    rcases hdata with rfl | rfl
    · exact absurd hcontrol (by decide)
    · exact absurd hcontrol (by decide)
  · have hcontrol : type = .ePingFrame ∨ type = .ePongFrame ∨ type = .eCloseFrame := by
      cases type with
      | eContinueFrame => exact absurd rfl htype
      | eTextFrame => exact absurd (.inl rfl) hdata
      | eBlobFrame => exact absurd (.inr rfl) hdata
      | ePingFrame => exact .inl rfl
      | ePongFrame => exact .inr (.inl rfl)
      | eCloseFrame => exact .inr (.inr rfl)
    rw [or_iff_right hdata]
    exact encodesAlike_control_iff hne (Nat.lt_succ_of_le (hlen hcontrol)) hcontrol header header'

/-- Two pings of the heartbeat with the same reserved bits. -/
theorem encodesAlike_ping : EncodesAlike csping .ePingFrame ⟨0, 0, 0, 0, 0⟩ ⟨1, 0, 3, 1, 77⟩ :=
  (encodesAlike_iff csping (by decide) _ (by decide) (by decide) _ _).mpr
    (.inr ⟨rfl, fun h => absurd h (by decide)⟩)

/-- Reserved bits left over from the stack in a ping, and a close frame that is masked without saying
so. -/
theorem not_encodesAlike :
    ¬EncodesAlike csping .ePingFrame ⟨0, 0, 0, 0, 0⟩ ⟨0, 1, 0, 0, 0⟩ ∧
      ¬EncodesAlike csping .eCloseFrame ⟨0, 0, 0, 0, 0⟩ ⟨0, 0, 0, 0, 0⟩ := by
  refine ⟨?_, ?_⟩
  · intro h
    exact absurd h.out_eq (by decide)
  · intro h
    rcases h.decodes (.inr (.inr rfl)) _ (.inl rfl) with ⟨buff, hbuff, hdelivered⟩
    cases hbuff
    exact absurd (hdelivered fun _ => 0) (by decide)

end WebsocketCpp
