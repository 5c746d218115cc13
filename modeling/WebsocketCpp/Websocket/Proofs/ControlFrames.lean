import WebsocketCpp.Websocket.Proofs.CallerBuffer
import WebsocketCpp.Websocket.Proofs.DecodeFront

/-!
# Control frames

Ping, pong and close frames have no 16-bit length: `encodeFrame` puts `unsigned char pinglen = len`
into the 7 bits of `PayloadLen` and copies all `len` bytes (`websocket/WSProtocol.cpp:234-293`). The
decoder takes the two top codes for a 16-bit length and for nothing it knows, and a smaller one for
the whole length, so that a ping or pong comes back as it was sent exactly below 126 bytes
(`roundTrips_iff`).
-/

namespace WebsocketCpp

open Traced (Sim)

/-! ## What is emitted -/

/-- The header after the ping, pong and close branches for a payload of `len` bytes. None of them
assigns `RSV`, and the close branch leaves `mask` as well. -/
def controlHead (header : WSHead) (type : OpCode) (len : Nat) : WSHead where
  FIN := 1
  RSV := header.RSV
  Opcode := type.code
  mask := if type = .eCloseFrame then header.mask else 1
  PayloadLen := BitVec.ofNat 7 (len % 256)

theorem encodeFrame_control (header : WSHead) {payload : List UInt8} (hne : payload ≠ [])
    {type : OpCode} (htype : type = .ePingFrame ∨ type = .ePongFrame ∨ type = .eCloseFrame) :
    (encodeFrame header payload type).out =
      [shortLayout (controlHead header type payload.length) (xorMask payload)] := by
  rcases htype with rfl | rfl | rfl
  all_goals
    rw [encodeFrame, computeMask_all hne, pure_bind, Traced.emit_bind]
    rfl

theorem payloadLen_controlHead (header : WSHead) (type : OpCode) (len : Nat) :
    (controlHead header type len).PayloadLen.toNat = len % 128 := by
  simp only [controlHead, BitVec.toNat_ofNat]
  omega

theorem opcode_controlHead (header : WSHead) {type : OpCode} (len : Nat)
    (htype : type = .ePingFrame ∨ type = .ePongFrame ∨ type = .eCloseFrame) :
    (controlHead header type len).Opcode ≠ OpCode.eContinueFrame.code := by
  show type.code ≠ _
  rcases htype with rfl | rfl | rfl <;> decide

theorem payloadLen_controlHead_of_lt (header : WSHead) (type : OpCode) {len : Nat}
    (h : len < SHORT_LENGTH) : (controlHead header type len).PayloadLen.toNat = len := by
  rw [payloadLen_controlHead]
  rw [SHORT_LENGTH] at h
  omega

theorem payloadLen_controlHead_le (header : WSHead) (type : OpCode) {body : List UInt8}
    (h : body.length < SHORT_LENGTH) :
    (controlHead header type body.length).PayloadLen.toNat ≤ SHORT_LENGTH :=
  Nat.le_trans (Nat.le_of_eq (payloadLen_controlHead_of_lt header type h)) (Nat.le_of_lt h)

theorem length_eq_payloadLen_controlHead (header : WSHead) (type : OpCode) {body : List UInt8}
    (h : body.length < SHORT_LENGTH)
    (_ : (controlHead header type body.length).PayloadLen.toNat < SHORT_LENGTH) :
    body.length = (controlHead header type body.length).PayloadLen.toNat :=
  (payloadLen_controlHead_of_lt header type h).symm

theorem length_lt_of_lt_short {body : List UInt8} (h : body.length < SHORT_LENGTH) :
    body.length < 2 ^ 16 := Nat.lt_trans h (by decide)

/-- A control frame whose length fits into the header. -/
def controlFrame (header : WSHead) (type : OpCode) (body : List UInt8)
    (h : body.length < SHORT_LENGTH) : Frame where
  head := controlHead header type body.length
  key := maskBytes
  body := body
  length_key := length_maskBytes
  payloadLen_le := payloadLen_controlHead_le header type h
  length_body := length_eq_payloadLen_controlHead header type h
  length_body_lt := length_lt_of_lt_short h

theorem wire_controlFrame (header : WSHead) (type : OpCode) {body : List UInt8}
    (h : body.length < SHORT_LENGTH) :
    (controlFrame header type body h).wire =
      shortLayout (controlHead header type body.length) body := by
  have hne : (controlFrame header type body h).head.PayloadLen.toNat ≠ SHORT_LENGTH := by
    show (controlHead header type body.length).PayloadLen.toNat ≠ _
    rw [payloadLen_controlHead_of_lt header type h]
    exact Nat.ne_of_lt h
  rw [Frame.wire, Frame.lengthField, if_neg hne, List.append_nil]
  rfl

theorem length_xorMask_lt_short {payload : List UInt8} (h : payload.length < SHORT_LENGTH) :
    (xorMask payload).length < SHORT_LENGTH := by rwa [length_xorMask]

/-- The buffer is one frame as long as the length fits. -/
theorem shortLayout_eq_wires (header : WSHead) (type : OpCode) {payload : List UInt8}
    (h : payload.length < SHORT_LENGTH) :
    shortLayout (controlHead header type payload.length) (xorMask payload) =
      wires [controlFrame header type (xorMask payload) (length_xorMask_lt_short h)] := by
  rw [wires_cons, wires_nil, List.append_nil, wire_controlFrame, length_xorMask]

/-- A control frame is accepted, and delivered as a message of its own. -/
theorem controlFrame_accepted (header : WSHead) {type : OpCode}
    (htype : type = .ePingFrame ∨ type = .ePongFrame ∨ type = .eCloseFrame)
    {body : List UInt8} (hne : body ≠ []) (h : body.length < SHORT_LENGTH) :
    (controlFrame header type body h).Accepted ∧
      (controlFrame header type body h).fragment =
        .whole (controlFrame header type body h).payload := by
  refine ⟨⟨?_, fun _ => hne⟩, ?_⟩
  · intro hfin
    exact absurd rfl hfin
  · exact Frame.fragment_whole rfl (opcode_controlHead header _ htype)

/-- A frame that is a message of its own, decoded on its own. -/
theorem decodeFrame_whole (p : WSProtocol) {f : Frame} (ha : f.Accepted)
    (hfrag : f.fragment = .whole f.payload) :
    (decodeFrame p (wires [f])).out = [FrameCall.of f.payload] ∧
      decodedLens p (wires [f]) = [0] := by
  have hlen := length_wires_singleton_lt f
  have hfit : f.fragment.Fits MAX_FRAMESIZE p.reassembled := by
    rw [hfrag]
    trivial
  refine ⟨?_, ?_⟩
  · rw [(decodeFrame_wires p (List.cons_ne_nil f []) hlen).out_eq, receiveAll_singleton,
      receive_ok ha hfit, hfrag]
    rfl
  · rw [decodedLens, if_pos hlen, lens_wires p [f] (Nat.lt_succ_self _), frameLens,
      if_pos ⟨ha, hfit⟩]
    rfl

/-! ## The round trip -/

/-- A call of `encodeFrame` emits one buffer, which a new decoder consumes as a whole and of which it
delivers the payload, once. `header` is what the local header of `encodeFrame` holds. -/
def ControlRoundTrip (header : WSHead) (mem : Nat → UInt8) (payload : List UInt8) (type : OpCode) :
    Prop :=
  ∃ buff, (encodeFrame header payload type).out = [buff] ∧
    decodedLens (.new mem) buff = [0] ∧
    (decodeFrame (.new mem) buff).out = [FrameCall.of payload]

theorem out_unmaskPayload (header : WSHead) (payl : List UInt8) (payll : Nat) :
    (unmaskPayload header payl payll).out = [] := by
  unfold unmaskPayload
  split
  · unfold computeUnMask maskInPlace Traced.require
    split <;> split <;> rfl
  · rfl

/-- A frame with FIN == 1 that is no continuation is delivered with the length that was found. -/
theorem out_decodeIter_whole (p : WSProtocol) {data payl rest : List UInt8} {header : WSHead}
    {payll : Nat} (hhead : readHead data = pure header) (hfin : header.FIN = 1)
    (hop : header.Opcode ≠ OpCode.eContinueFrame.code)
    (hloc : locatePayload header data = pure (payl, payll, rest)) :
    ((decodeIter p data).out = [] ∧ ∃ e, (decodeIter p data).result = .error e) ∨
      ∃ bytes, (decodeIter p data).out = [⟨bytes, payll⟩] := by
  have hout := out_unmaskPayload header payl payll
  simp only [decodeIter, hhead, pure_bind, if_pos hfin, hloc, if_neg hop]
  cases hres : (unmaskPayload header payl payll).result with
  | error e =>
      rw [Traced.bind_of_error hres]
      exact .inl ⟨hout, e, rfl⟩
  | ok payl' =>
      rw [Traced.bind_of_ok hres, hout]
      exact .inr ⟨_, rfl⟩

/-- What a call delivers first has the length that was found. -/
theorem length_of_out_decodeFrame {p : WSProtocol} {data payl rest payload : List UInt8}
    {header : WSHead} {payll : Nat} (hhead : readHead data = pure header) (hfin : header.FIN = 1)
    (hop : header.Opcode ≠ OpCode.eContinueFrame.code)
    (hloc : locatePayload header data = pure (payl, payll, rest))
    (h : (decodeFrame p data).out = [FrameCall.of payload]) : payll = payload.length := by
  by_cases hlen : data.length < MAX_FRAMESIZE
  case neg =>
    rw [decodeFrame, Traced.require_false hlen, Traced.fail_bind] at h
    cases h
  rw [decodeFrame, Traced.require_true hlen, pure_bind] at h
  rcases out_decodeIter_whole p hhead hfin hop hloc with ⟨hout, e, herr⟩ | ⟨bytes, hout⟩
  · rw [decodeLoop, Traced.bind_of_error herr, hout] at h
    cases h
  · have hpre : (decodeIter p data).out <+: (decodeLoop (data.length + 1) p data).out :=
      Traced.out_prefix_bind (decodeIter p data) _
    rw [hout] at hpre
    rcases hpre with ⟨tail, htail⟩
    rw [← htail] at h
    exact congrArg FrameCall.len (List.cons.inj h).1

/-- Where a ping or pong fits into the header. -/
theorem controlRoundTrip_of_lt (header : WSHead) (mem : Nat → UInt8) {payload : List UInt8}
    (hne : payload ≠ []) {type : OpCode} (htype : type = .ePingFrame ∨ type = .ePongFrame)
    (h : payload.length < SHORT_LENGTH) : ControlRoundTrip header mem payload type := by
  have htype' : type = .ePingFrame ∨ type = .ePongFrame ∨ type = .eCloseFrame :=
    htype.imp_right Or.inl
  have hbody : xorMask payload ≠ [] := fun hnil => hne (xorMask_eq_nil.mp hnil)
  rcases controlFrame_accepted header htype' hbody (length_xorMask_lt_short h) with ⟨ha, hfrag⟩
  have hmask : (controlFrame header type (xorMask payload) (length_xorMask_lt_short h)).head.mask =
      1 := by
    rcases htype with rfl | rfl <;> rfl
  have hpayload : (controlFrame header type (xorMask payload)
      (length_xorMask_lt_short h)).payload = payload := by
    rw [Frame.payload, if_pos hmask]
    exact xorMask_xorMask payload
  rcases decodeFrame_whole (.new mem) ha hfrag with ⟨hout, hlens⟩
  rw [hpayload] at hout
  rw [← shortLayout_eq_wires header type h] at hout hlens
  exact ⟨_, encodeFrame_control header hne htype', hlens, hout⟩

theorem readHead_shortLayout (header : WSHead) (payload : List UInt8) :
    readHead (shortLayout header payload) = pure header := by
  simp only [shortLayout, WSHead.toBytes, List.cons_append, readHead, WSHead.ofBytes_toBytes]

/-- The key in the place of the 16-bit length. -/
theorem readUShort_shortLayout (header : WSHead) (payload : List UInt8) :
    readUShort ((shortLayout header payload).drop 2) = pure 2050 := rfl

/-- The length that the decoder finds: the low bits of the real one, the first two bytes of the key,
or none. -/
theorem locatePayload_controlHead (header : WSHead) (type : OpCode) (len : Nat)
    (body : List UInt8) : ∃ payl payll rest,
      locatePayload (controlHead header type len) (shortLayout (controlHead header type len) body) =
        pure (payl, payll, rest) ∧
      ((payll = len % 128 ∧ len % 128 < 126) ∨ (payll = 2050 ∧ len % 128 = 126) ∨
        (payll = 0 ∧ len % 128 = 127)) := by
  have hcode := payloadLen_controlHead header type len
  have hmod := Nat.mod_lt len (show 0 < 128 by decide)
  unfold locatePayload
  rw [hcode, SHORT_LENGTH]
  by_cases hlt : len % 128 < 126
  · rw [if_pos hlt]
    exact ⟨_, _, _, rfl, .inl ⟨rfl, hlt⟩⟩
  · by_cases heq : len % 128 = 126
    · rw [if_neg hlt, if_pos heq, readUShort_shortLayout, pure_bind]
      exact ⟨_, _, _, rfl, .inr (.inl ⟨rfl, heq⟩)⟩
    · rw [if_neg hlt, if_neg heq]
      exact ⟨_, _, _, rfl, .inr (.inr ⟨rfl, by omega⟩)⟩

/-- A longer one is taken for one of another length, or stops the decoder. -/
theorem not_controlRoundTrip_of_le (header : WSHead) (mem : Nat → UInt8) {payload : List UInt8}
    (hne : payload ≠ []) {type : OpCode} (htype : type = .ePingFrame ∨ type = .ePongFrame)
    (h : 126 ≤ payload.length) : ¬ControlRoundTrip header mem payload type := by
  have htype' : type = .ePingFrame ∨ type = .ePongFrame ∨ type = .eCloseFrame :=
    htype.imp_right Or.inl
  rintro ⟨buff, henc, -, hdec⟩
  rw [encodeFrame_control header hne htype', List.cons.injEq] at henc
  rcases henc with ⟨rfl, -⟩
  rcases locatePayload_controlHead header type payload.length (xorMask payload) with
    ⟨payl, payll, rest, hloc, hfound⟩
  have hlen := length_of_out_decodeFrame
    (readHead_shortLayout (controlHead header type payload.length) (xorMask payload)) rfl
    (opcode_controlHead header payload.length htype') hloc hdec
  omega

/-- A ping or pong comes back as it was sent exactly if it is shorter than 126 bytes. -/
theorem controlRoundTrip_iff (header : WSHead) (mem : Nat → UInt8) (payload : List UInt8)
    (hne : payload ≠ []) (type : OpCode) (htype : type = .ePingFrame ∨ type = .ePongFrame) :
    ControlRoundTrip header mem payload type ↔ payload.length < 126 := by
  refine ⟨?_, controlRoundTrip_of_lt header mem hne htype⟩
  intro htrip
  by_contra hlen
  exact not_controlRoundTrip_of_le header mem hne htype (Nat.le_of_not_lt hlen) htrip

/-- The ping of the heartbeat. -/
theorem controlRoundTrip_ping :
    ControlRoundTrip ⟨0, 0, 0, 0, 0⟩ (fun _ => 0) csping .ePingFrame :=
  (controlRoundTrip_iff _ _ _ (by decide) _ (.inl rfl)).mpr (by decide)

/-- A ping of 128 bytes: the length in the header is 0. -/
theorem not_controlRoundTrip_128 :
    ¬ControlRoundTrip ⟨0, 0, 0, 0, 0⟩ (fun _ => 0) (List.replicate 128 0x61) .ePingFrame :=
  not_controlRoundTrip_of_le _ _ (by simp) (.inl rfl)
    (by rw [List.length_replicate]; decide)

end WebsocketCpp
