import WebsocketCpp.Websocket.Mask

/-!
# The encoder

`WSProtocol::encodeFrame` (`websocket/WSProtocol.cpp:74-297`). An execution emits the
buffers passed to the callback, in order, and returns the caller's payload buffer as the
call leaves it. Every call site passes a callback, so the tests `func != NULL` are left
out. The local `WSHead header` starts uninitialised; its contents are an argument.
-/

namespace WebsocketCpp

/-- `SLICE_SIZE` (`WSProtocol.cpp:7`). -/
def SLICE_SIZE : Nat := 500

/-- `SHORT_LENGTH` (`WSProtocol.cpp:8`). -/
def SHORT_LENGTH : Nat := 126

/-- `memcpy(_, &value, 2)` of an `unsigned short`. -/
def ushortBytes (value : Nat) : List UInt8 := [UInt8.ofNat value, UInt8.ofNat (value / 256)]

/-- The layout with a 7-bit length (`WSProtocol.cpp:110-114`). -/
def shortLayout (header : WSHead) (payload : List UInt8) : List UInt8 :=
  header.toBytes ++ maskBytes ++ payload

/-- The layout with a 16-bit length (`WSProtocol.cpp:134-139`). -/
def longLayout (header : WSHead) (actuallen : Nat) (payload : List UInt8) : List UInt8 :=
  header.toBytes ++ ushortBytes actuallen ++ maskBytes ++ payload

/-- `memcpy(_, payload + off, n)`. -/
def slicePayload (payload : List UInt8) (off n : Nat) : List UInt8 := (payload.drop off).take n

/-- The loop over the slices (`WSProtocol.cpp:158-229`), from iteration `i` on with `n`
iterations left. `payload` is masked already; `header` is what the previous iteration left. -/
def encodeSlices (payload : List UInt8) (slice lastlen : Nat) :
    Nat → Nat → WSHead → Traced (List UInt8) Fault Unit
  | 0, _, _ => pure ()
  | n + 1, i, header => do
    let header := { header with PayloadLen := BitVec.ofNat 7 SHORT_LENGTH }
    if i = 0 then
      let header := { header with FIN := 0 }
      Traced.emit (longLayout header SLICE_SIZE (slicePayload payload (i * SLICE_SIZE) SLICE_SIZE))
      encodeSlices payload slice lastlen n (i + 1) header
    else if i + 1 < slice then
      let header := { header with FIN := 0, Opcode := OpCode.eContinueFrame.code }
      Traced.emit (longLayout header SLICE_SIZE (slicePayload payload (i * SLICE_SIZE) SLICE_SIZE))
      encodeSlices payload slice lastlen n (i + 1) header
    else
      let header := { header with FIN := 1, Opcode := OpCode.eContinueFrame.code }
      if lastlen < 126 then
        let header := { header with PayloadLen := BitVec.ofNat 7 lastlen }
        Traced.emit (shortLayout header (slicePayload payload ((i - 1) * SLICE_SIZE) lastlen))
      else
        Traced.emit (longLayout header lastlen (slicePayload payload (i * SLICE_SIZE) lastlen))

/-- `WSProtocol::encodeFrame` (`WSProtocol.cpp:74-297`). The payload length is an `int`, which
the control frames cut to an `unsigned char`. -/
def encodeFrame (header : WSHead) (payload : List UInt8) (type : OpCode) :
    Traced (List UInt8) Fault (List UInt8) :=
  let len := payload.length
  match type with
  | .eTextFrame | .eBlobFrame => do
    let header := { header with FIN := 0, RSV := 0, mask := 1, Opcode := type.code }
    if len < SHORT_LENGTH then
      let header := { header with FIN := 1, PayloadLen := BitVec.ofNat 7 len }
      let payload ← computeMask payload len
      Traced.emit (shortLayout header payload)
      pure payload
    else if len < SLICE_SIZE then
      let header := { header with FIN := 1, PayloadLen := BitVec.ofNat 7 SHORT_LENGTH }
      let payload ← computeMask payload len
      Traced.emit (longLayout header len payload)
      pure payload
    else
      let lastlen := len % SLICE_SIZE
      let slice := if 0 < lastlen then len / SLICE_SIZE + 1 else len / SLICE_SIZE
      let payload ← computeMask payload len
      encodeSlices payload slice lastlen slice 0 header
      pure payload
  | .ePingFrame | .ePongFrame => do
    let pinglen := len % 256
    let header := { header with
      FIN := 1, mask := 1, Opcode := type.code, PayloadLen := BitVec.ofNat 7 pinglen }
    let payload ← computeMask payload len
    Traced.emit (shortLayout header payload)
    pure payload
  | .eCloseFrame => do
    let closelen := len % 256
    let header := { header with
      FIN := 1, Opcode := type.code, PayloadLen := BitVec.ofNat 7 closelen }
    let payload ← computeMask payload len
    Traced.emit (shortLayout header payload)
    pure payload
  | .eContinueFrame => pure payload

end WebsocketCpp
