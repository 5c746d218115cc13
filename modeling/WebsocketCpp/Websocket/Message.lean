import WebsocketCpp.Websocket.Frame

/-!
# Messages and their frames

A `Message` is a call of `encodeFrame` with a text or blob payload. `Message.frames` are the
frames it is sent as; `Proofs/EncodeFrames.lean` shows that their bytes are the buffers
`encodeFrame` passes to its callback.
-/

namespace WebsocketCpp

/-- A call `encodeFrame(payload, len, type)` for a text or blob message. `header` is what the
uninitialised local `WSHead` holds on entry. -/
structure Message where
  header : WSHead
  type : OpCode
  payload : List UInt8
  isData : type = .eTextFrame ∨ type = .eBlobFrame
  nonempty : payload ≠ []

/-- A text. -/
def Message.text (payload : List UInt8) (h : payload ≠ []) : Message where
  header := ⟨0, 0, 0, 0, 0⟩
  type := .eTextFrame
  payload := payload
  isData := .inl rfl
  nonempty := h

/-- A masked frame in the layout its length asks for. -/
def dataFrame (fin : BitVec 1) (op : BitVec 4) (body : List UInt8) (h : body.length < 2 ^ 16) :
    Frame where
  head := ⟨fin, 0, op, 1, BitVec.ofNat 7 (min body.length SHORT_LENGTH)⟩
  key := maskBytes
  body := body
  length_key := rfl
  payloadLen_le := by simp [SHORT_LENGTH]; omega
  length_body := by simp [SHORT_LENGTH]; omega
  length_body_lt := h

theorem length_slicePayload_le (payload : List UInt8) (off n : Nat) :
    (slicePayload payload off n).length ≤ n := List.length_take_le ..

theorem length_slicePayload {payload : List UInt8} {off n : Nat} (h : off + n ≤ payload.length) :
    (slicePayload payload off n).length = n := by
  simp [slicePayload]; omega

namespace Message

/-- The size of the last slice, 0 if there is no partial one. -/
def lastlen (m : Message) : Nat := m.payload.length % SLICE_SIZE

/-- The number of slices. -/
def slice (m : Message) : Nat :=
  if 0 < m.lastlen then m.payload.length / SLICE_SIZE + 1 else m.payload.length / SLICE_SIZE

/-- The number of bytes of the `i`-th slice. -/
def sliceSize (m : Message) (i : Nat) : Nat :=
  if i = 0 ∨ i + 1 < m.slice then SLICE_SIZE else m.lastlen

/-- Where the `i`-th slice is read. The short layout of the last one is filled from the slice
before it (`WSProtocol.cpp:194`). -/
def sliceStart (m : Message) (i : Nat) : Nat :=
  if i = 0 ∨ i + 1 < m.slice ∨ SHORT_LENGTH ≤ m.lastlen then i * SLICE_SIZE
  else (i - 1) * SLICE_SIZE

/-- The masked payload of the `i`-th slice. -/
def sliceBody (m : Message) (i : Nat) : List UInt8 :=
  slicePayload (xorMask m.payload) (m.sliceStart i) (m.sliceSize i)

theorem lastlen_lt (m : Message) : m.lastlen < SLICE_SIZE := Nat.mod_lt _ (by decide)

theorem sliceSize_le (m : Message) (i : Nat) : m.sliceSize i ≤ SLICE_SIZE := by
  unfold sliceSize
  split
  · exact Nat.le_refl _
  · exact Nat.le_of_lt m.lastlen_lt

theorem length_sliceBody_lt (m : Message) (i : Nat) : (m.sliceBody i).length < 2 ^ 16 :=
  Nat.lt_of_le_of_lt (Nat.le_trans (length_slicePayload_le ..) (m.sliceSize_le i)) (by decide)

/-- The frame of the `i`-th slice: the first one never has its FIN bit set. -/
def sliceFrame (m : Message) (i : Nat) : Frame :=
  dataFrame (if i = 0 ∨ i + 1 < m.slice then 0 else 1)
    (if i = 0 then m.type.code else OpCode.eContinueFrame.code) (m.sliceBody i)
    (m.length_sliceBody_lt i)

theorem length_xorMask_lt (m : Message) (h : m.payload.length < SLICE_SIZE) :
    (xorMask m.payload).length < 2 ^ 16 := by
  rw [length_xorMask]
  exact Nat.lt_trans h (by decide)

/-- The frames of a message. -/
def frames (m : Message) : List Frame :=
  if h : m.payload.length < SLICE_SIZE then
    [dataFrame 1 m.type.code (xorMask m.payload) (m.length_xorMask_lt h)]
  else (List.range m.slice).map m.sliceFrame

/-- The message goes through `encodeFrame`; the buffers are what it emits. -/
def encode (m : Message) : Traced (List UInt8) Fault (List UInt8) :=
  encodeFrame m.header m.payload m.type

end Message

/-- The frames of a sequence of messages. -/
def framesOf (msgs : List Message) : List Frame := msgs.flatMap Message.frames

/-- The bytes that a sequence of `encodeFrame` calls hands to its callback. -/
def sent (msgs : List Message) : List UInt8 := (msgs.flatMap fun m => m.encode.out).flatten

end WebsocketCpp
