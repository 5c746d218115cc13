import WebsocketCpp.Misc.Decimal
import WebsocketCpp.Base.Proofs.BufferGrowth
import WebsocketCpp.Net.NetConnection

/-!
# Reads arrive intact

`handleRead` (`net/NetConnection.cpp:37-61`) with the message callbacks of the client and the server,
which take everything out of the buffer. What `readv` puts into `morebuf` (`base/Buffer.cpp:15-48`) is
written behind what fits, and the storage is only ever exchanged for more.
-/

namespace WebsocketCpp

/-- What `readv` returns: bytes, 0 or a negative number. -/
inductive ReadvAnswer where
  | bytes (r : SocketRead)
  | eof
  | failed

/-- The bytes of an answer. -/
def ReadvAnswer.data? : ReadvAnswer → Option (List UInt8)
  | .bytes r => some r.data
  | .eof | .failed => none

namespace NetConnection

/-- `NetConnection::handleRead` on each answer, as far as the read buffer goes. The event is what
`readAll` gives the message callback. -/
def receive (c : NetConnection) : ReadvAnswer → Traced (List UInt8) Fault NetConnection
  | .bytes r => do
    let c ← Traced.ofExcept (c.handleRead r)
    let (data, readBuffer) ← Traced.ofExcept c.readBuffer.readAll
    Traced.emit data
    pure { c with readBuffer := readBuffer }
  | .eof => pure { c with state := .eDisconnected, readBuffer := c.readBuffer.reset }
  | .failed => pure { c with readBuffer := c.readBuffer.reset }

/-- A sequence of reads. -/
def receives (c : NetConnection) (answers : List ReadvAnswer) :
    Traced (List UInt8) Fault NetConnection := answers.foldlM receive c

def capacity (c : NetConnection) : Nat := c.readBuffer.buffer.capacity

end NetConnection

/-- `csMaxBufSize` (`base/Buffer.cpp:17`), the size of `morebuf`. -/
def csMaxBufSize : Nat := 65536

/-- `readv` fills the areas it is given: `morebuf` is one of them if the writable area is smaller. -/
def ReadvAnswer.Fits (b : Buffer) : ReadvAnswer → Prop
  | .bytes r =>
    r.data.length ≤ b.writeableBytes + if b.writeableBytes < csMaxBufSize then csMaxBufSize else 0
  | .eof | .failed => True

/-- What `readfd` prints into `debug[64]`. -/
def debugLine (readlen writelen size : Nat) : List Char :=
  "###readfd:readlen=".toList ++ decimal readlen ++ ",writelen=".toList ++ decimal writelen ++
    ",buffer_size=".toList ++ decimal size ++ " \n".toList

/-! ## The storage -/

namespace CharVector

theorem capacity_le_resize (v : CharVector) (n : Nat) (alloc : Alloc) :
    v.capacity ≤ (v.resize n alloc).capacity := by
  rw [capacity_resize]
  split <;> omega

end CharVector

namespace Buffer

variable {b b' : Buffer}

theorem capacity_of_retrieve {len : Nat} (h : b.retrieve len = .ok b') :
    b'.buffer.capacity = b.buffer.capacity := by
  unfold retrieve at h
  split at h
  · split at h
    · cases h
      rfl
    · cases h
      rfl
  · cases h

theorem capacity_of_read {data : List UInt8} {len : Nat} (h : b.read len = .ok (data, b')) :
    b'.buffer.capacity = b.buffer.capacity := by
  unfold read at h
  cases hb : b.retrieve len with
  | error e =>
      rw [hb] at h
      cases h
  | ok b1 =>
      rw [hb] at h
      cases h
      exact capacity_of_retrieve hb

theorem capacity_of_fill {data : List UInt8} {len : Nat}
    (h : (b.poke data).hasWritten len = .ok b') : b'.buffer.capacity = b.buffer.capacity := by
  unfold hasWritten at h
  split at h
  · cases h
    rfl
  · cases h

theorem capacity_le_newSpace {len : Nat} {alloc : Alloc} (h : b.newSpace len alloc = .ok b') :
    b.buffer.capacity ≤ b'.buffer.capacity := by
  unfold newSpace at h
  split at h
  · rw [reallocate, read_all_eq] at h
    dsimp only [bind, Except.bind] at h
    split at h
    · cases h
      exact b.buffer.capacity_le_resize ..
    · cases h
  · cases h
    exact Nat.le_refl _

theorem capacity_le_write {data : List UInt8} {alloc : Alloc} (h : b.write data alloc = .ok b') :
    b.buffer.capacity ≤ b'.buffer.capacity := by
  rw [write_eq] at h
  cases hb : b.ensureWritableBytes data.length alloc with
  | error e =>
      rw [hb] at h
      cases h
  | ok b1 =>
      rw [hb] at h
      have hle : b.buffer.capacity ≤ b1.buffer.capacity := by
        unfold ensureWritableBytes at hb
        split at hb
        · exact capacity_le_newSpace hb
        · cases hb
          exact Nat.le_refl _
      dsimp only [bind, Except.bind] at h
      split at h
      · rwa [capacity_of_fill h]
      · cases h

theorem capacity_le_readfd {data : List UInt8} {alloc : Alloc} (h : b.readfd data alloc = .ok b') :
    b.buffer.capacity ≤ b'.buffer.capacity := by
  unfold readfd at h
  dsimp only at h
  split at h
  · exact Nat.le_of_eq (capacity_of_fill h).symm
  · cases hb : (b.poke (data.take b.writeableBytes)).hasWritten b.writeableBytes with
    | error e =>
        rw [hb] at h
        cases h
    | ok b1 =>
        rw [hb] at h
        rw [← capacity_of_fill hb]
        exact capacity_le_write h

end Buffer

/-! ## Runs -/

namespace NetConnection

/-- One read hands over what `readv` returned, and the storage does not shrink. -/
theorem receive_spec (c : NetConnection) (answer : ReadvAnswer) :
    ∃ c', c.receive answer = ⟨answer.data?.toList, .ok c'⟩ ∧ c.capacity ≤ c'.capacity := by
  cases answer with
  | bytes r =>
      rcases Buffer.readfd_reset_spec c.readBuffer r.data r.alloc with ⟨b1, hb1, hholds⟩
      rcases Buffer.readAll_spec hholds with ⟨b2, hb2, -⟩
      refine ⟨{ c with readBuffer := b2 }, ?_, ?_⟩
      · simp only [receive, handleRead, hb1]
        dsimp only [bind, Except.bind, pure, Except.pure, Traced.ofExcept]
        rw [hb2]
        rfl
      · have hread : c.readBuffer.reset.buffer.capacity ≤ b1.buffer.capacity :=
          Buffer.capacity_le_readfd hb1
        rw [← Buffer.capacity_of_read hb2] at hread
        exact hread
  | eof => exact ⟨_, rfl, Nat.le_refl _⟩
  | failed => exact ⟨_, rfl, Nat.le_refl _⟩

theorem receives_append (c : NetConnection) (before after : List ReadvAnswer) :
    c.receives (before ++ after) = c.receives before >>= fun c' => c'.receives after :=
  List.foldlM_append

/-- Any sequence of reads returns, having handed over exactly the bytes that came, read by read. -/
theorem receives_spec (c : NetConnection) (answers : List ReadvAnswer) :
    ∃ c', c.receives answers = ⟨answers.filterMap ReadvAnswer.data?, .ok c'⟩ ∧
      c.capacity ≤ c'.capacity := by
  induction answers generalizing c with
  | nil => exact ⟨c, rfl, Nat.le_refl _⟩
  | cons answer answers ih =>
      rcases c.receive_spec answer with ⟨c₁, hc₁, hle₁⟩
      rcases ih c₁ with ⟨c₂, hc₂, hle₂⟩
      refine ⟨c₂, ?_, Nat.le_trans hle₁ hle₂⟩
      have hcons : c.receives (answer :: answers) = c.receive answer >>= fun c' =>
        c'.receives answers := rfl
      rw [hcons, hc₁, Traced.mk_bind, hc₂]
      cases answer <;> rfl

/-- At every point of a sequence of reads the callback has seen exactly what `readv` returned, no
assertion has failed, and the storage is at least what it was at any point before. -/
theorem receives_intact (c : NetConnection) (before after : List ReadvAnswer) :
    ∃ c₁ c₂, c.receives before = ⟨before.filterMap ReadvAnswer.data?, .ok c₁⟩ ∧
      c.receives (before ++ after) = ⟨(before ++ after).filterMap ReadvAnswer.data?, .ok c₂⟩ ∧
      c.capacity ≤ c₁.capacity ∧ c₁.capacity ≤ c₂.capacity := by
  rcases c.receives_spec before with ⟨c₁, hc₁, hle₁⟩
  rcases c₁.receives_spec after with ⟨c₂, hc₂, hle₂⟩
  refine ⟨c₁, c₂, hc₁, ?_, hle₁, hle₂⟩
  rw [receives_append, hc₁, Traced.mk_bind, hc₂, List.filterMap_append]

theorem length_debugLine (readlen writelen size : Nat) :
    (debugLine readlen writelen size).length =
      18 + (decimal readlen).length + 10 + (decimal writelen).length + 13 + (decimal size).length +
        2 := by
  unfold debugLine
  simp only [List.length_append]
  rfl

/-- The line printed when `morebuf` is used, and its end, fit into `debug`. The vector has been cleared
before the read. -/
theorem length_debugLine_lt {b : Buffer} {r : SocketRead} (hfits : (ReadvAnswer.bytes r).Fits b.reset)
    (hmore : b.reset.writeableBytes < r.data.length) :
    (debugLine r.data.length b.reset.writeableBytes b.reset.buffer.size).length < 64 := by
  have hsmall : b.reset.writeableBytes < csMaxBufSize := by
    by_contra h
    rw [ReadvAnswer.Fits, if_neg h] at hfits
    omega
  rw [ReadvAnswer.Fits, if_pos hsmall] at hfits
  have hread : r.data.length < 10 ^ 6 :=
    Nat.lt_of_le_of_lt (Nat.le_trans hfits (Nat.add_le_add_right (Nat.le_of_lt hsmall) _)) (by decide)
  have hwrite : b.reset.writeableBytes < 10 ^ 5 := Nat.lt_trans hsmall (by decide)
  have hsize : b.reset.buffer.size = 0 := rfl
  have hreadlen := length_decimal_le (by decide) hread
  have hwritelen := length_decimal_le (by decide) hwrite
  have hzero : (decimal 0).length = 1 := rfl
  rw [hsize, length_debugLine, hzero]
  omega

end NetConnection

end WebsocketCpp
