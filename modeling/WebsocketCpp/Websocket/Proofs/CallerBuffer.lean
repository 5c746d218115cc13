import WebsocketCpp.Websocket.WSNet
import WebsocketCpp.Websocket.WebSocketServer
import WebsocketCpp.Websocket.Proofs.EncodeFrames

/-!
# The caller's buffer

`encodeFrame` masks the payload where it lies, and both `send` functions hand it the caller's pointer
behind a cast that drops `const` (`websocket/WSNet.cpp:67`, `websocket/WebSocketServer.cpp:81`). A
buffer is therefore another one after it has been sent, and a second send of it sends other bytes:
`callerBuffer_iff`.
-/

namespace WebsocketCpp

/-- No byte of the key is zero at the start of a payload. -/
theorem xorMask_ne_self {data : List UInt8} (h : data ≠ []) : xorMask data ≠ data := by
  cases data with
  | nil => exact absurd rfl h
  | cons b bs =>
      intro heq
      rw [xorMask, cyclicMap, List.mapIdx_cons] at heq
      have hhead : b ^^^ maskByte 0 = b ^^^ 0 := (List.cons.inj heq).1.trans UInt8.xor_zero.symm
      exact absurd ((UInt8.xor_right_inj b).mp hhead) (by decide)

/-- A call that masks anything leaves another buffer. -/
theorem encodeFrame_result_ne (header : WSHead) {data : List UInt8} {type : OpCode}
    (htype : type ≠ .eContinueFrame) : (encodeFrame header data type).result ≠ .ok data := by
  have hmask : ∀ data' : List UInt8,
      (computeMask data data.length : Traced (List UInt8) Fault _).result = .ok data' →
        data' ≠ data := by
    intro data' hok
    by_cases hdata : data = []
    · subst hdata
      cases hok
    · rw [computeMask_all hdata] at hok
      cases hok
      exact xorMask_ne_self hdata
  intro hok
  cases type with
  | eContinueFrame => exact htype rfl
  | eTextFrame | eBlobFrame =>
      rw [encodeFrame] at hok
      split at hok
      · obtain ⟨data', hdata', hrest⟩ := Traced.result_bind hok
        exact hmask data' hdata' (Except.ok.inj hrest)
      · split at hok
        · obtain ⟨data', hdata', hrest⟩ := Traced.result_bind hok
          exact hmask data' hdata' (Except.ok.inj hrest)
        · obtain ⟨data', hdata', hrest⟩ := Traced.result_bind hok
          obtain ⟨_, -, hpure⟩ := Traced.result_bind hrest
          exact hmask data' hdata' (Except.ok.inj hpure)
  | ePingFrame | ePongFrame | eCloseFrame =>
      obtain ⟨data', hdata', hrest⟩ := Traced.result_bind hok
      exact hmask data' hdata' (Except.ok.inj hrest)

/-- Sends of one buffer, one after the other. `headers` is what the local headers hold. -/
def sends (send : WSHead → List UInt8 → Traced (List UInt8) Fault (List UInt8))
    (headers : List WSHead) (data : List UInt8) : Traced (List UInt8) Fault (List UInt8) :=
  headers.foldlM (fun data header => send header data) data

/-- A receiver decodes the original contents each time, and they are in the buffer after each
send. -/
structure Unaltered (mem : Nat → UInt8)
    (send : WSHead → List UInt8 → Traced (List UInt8) Fault (List UInt8)) (headers : List WSHead)
    (data : List UInt8) : Prop where
  decoded : (decodeCalls (.new mem) (sends send headers data).out).out =
    List.replicate headers.length (FrameCall.of data)
  buffer : ∀ before, before <+: headers → (sends send before data).result = .ok data

theorem sends_nil (send : WSHead → List UInt8 → Traced (List UInt8) Fault (List UInt8))
    (data : List UInt8) : sends send [] data = pure data := rfl

/-- A continuation frame is not sent at all. -/
theorem out_sends_continue (headers : List WSHead) (data : List UInt8) :
    (sends (fun header data => WSNet.send header data .eContinueFrame) headers data).out = [] := by
  induction headers with
  | nil => rfl
  | cons header headers ih => exact ih

theorem unaltered_nil (mem : Nat → UInt8)
    (send : WSHead → List UInt8 → Traced (List UInt8) Fault (List UInt8)) (data : List UInt8) :
    Unaltered mem send [] data where
  decoded := rfl
  buffer := fun before h => by rw [List.prefix_nil.mp h, sends_nil]; rfl

/-- After one send of any kind the property is lost. -/
theorem not_unaltered_cons (mem : Nat → UInt8) (header : WSHead) (headers : List WSHead)
    (data : List UInt8) (type : OpCode) :
    ¬Unaltered mem (fun header data => encodeFrame header data type) (header :: headers) data := by
  intro h
  by_cases htype : type = .eContinueFrame
  · -- nothing arrives
    subst htype
    have hdecoded := h.decoded
    rw [show (sends (fun header data => encodeFrame header data .eContinueFrame)
      (header :: headers) data).out = [] from out_sends_continue ..] at hdecoded
    cases hdecoded
  · have hone := h.buffer [header] (List.prefix_append [header] headers)
    rw [sends, List.foldlM_cons] at hone
    obtain ⟨data', hdata', hrest⟩ := Traced.result_bind hone
    cases hrest
    exact encodeFrame_result_ne header htype hdata'

/-- Sending alters the buffer: the property holds only of no send at all. -/
theorem callerBuffer_iff (mem : Nat → UInt8) (headers : List WSHead) (data : List UInt8) :
    (∀ payloadType, Unaltered mem (fun header data => WSNet.send header data payloadType) headers
      data ↔ headers = []) ∧
    (Unaltered mem WebSocketServer.send headers data ↔ headers = []) := by
  have hiff (type : OpCode) :
      Unaltered mem (fun header data => encodeFrame header data type) headers data ↔
        headers = [] := by
    cases headers with
    | nil => exact iff_of_true (unaltered_nil ..) rfl
    | cons header headers =>
        exact iff_of_false (not_unaltered_cons mem header headers data type)
          (List.cons_ne_nil header headers)
  exact ⟨hiff, hiff .eTextFrame⟩

/-- A text "a" that the server sends twice. -/
theorem not_unaltered_repeatedText :
    ¬Unaltered (fun _ => 0) WebSocketServer.send [⟨0, 0, 0, 0, 0⟩, ⟨0, 0, 0, 0, 0⟩] [97] :=
  not_unaltered_cons (fun _ => 0) ⟨0, 0, 0, 0, 0⟩ [⟨0, 0, 0, 0, 0⟩] [97] .eTextFrame

end WebsocketCpp
