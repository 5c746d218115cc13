import WebsocketCpp.Fault
import WebsocketCpp.Misc.Region

/-!
# The read and write buffer

`Buffer` (`base/Buffer.h:45-210`, `base/Buffer.cpp:15-48`). The buffer uses the storage of a
`std::vector<char>` below its capacity, whatever its size. The positions are kept within the
storage by the structure; a copy that would leave it is the fault `writePastBuffer`.
-/

namespace WebsocketCpp

/-- `std::vector<char>`: storage of `capacity` bytes, of which the first `size` are elements. -/
structure CharVector where
  mem : Nat → UInt8
  size : Nat
  capacity : Nat
  size_le : size ≤ capacity

/-- How the allocator answers: capacity beyond what was asked for, and what the fresh storage
happens to hold. -/
structure Alloc where
  extra : Nat
  fresh : Nat → UInt8

namespace CharVector

/-- `reserve(n)` on a new vector. -/
def reserve (n : Nat) (alloc : Alloc) : CharVector where
  mem := alloc.fresh
  size := 0
  capacity := n + alloc.extra
  size_le := Nat.zero_le _

def clear (v : CharVector) : CharVector where
  mem := v.mem
  size := 0
  capacity := v.capacity
  size_le := Nat.zero_le _

/-- `resize(n)`: new elements are zero, and a reallocation keeps the elements only. -/
def resize (v : CharVector) (n : Nat) (alloc : Alloc) : CharVector :=
  if h : n ≤ v.capacity then
    { mem := fun i => if v.size ≤ i ∧ i < n then 0 else v.mem i
      size := n
      capacity := v.capacity
      size_le := h }
  else
    { mem := fun i => if i < v.size then v.mem i else if i < n then 0 else alloc.fresh i
      size := n
      capacity := n + alloc.extra
      size_le := Nat.le_add_right .. }

/-- A copy into the storage. -/
def store (v : CharVector) (off : Nat) (data : List UInt8) : CharVector :=
  { v with mem := Region.store v.mem off data }

@[simp] theorem capacity_store (v : CharVector) (off : Nat) (data : List UInt8) :
    (v.store off data).capacity = v.capacity := rfl

theorem le_capacity_resize (v : CharVector) (n : Nat) (alloc : Alloc) :
    n ≤ (v.resize n alloc).capacity := by
  unfold resize
  split
  · assumption
  · exact Nat.le_add_right ..

end CharVector

/-- The largest `int`. -/
def INT_MAX : Nat := 2147483647

/-- `Buffer::csInitialSize` (`Buffer.h:58`). -/
def csInitialSize : Nat := 1024 * 4

/-- `Buffer::csPrependSize` (`Buffer.h:59`). -/
def csPrependSize : Nat := 8

structure Buffer where
  readPos : Nat
  writePos : Nat
  buffer : CharVector
  readPos_le : readPos ≤ writePos
  writePos_le : writePos ≤ buffer.capacity
  prepend_le : csPrependSize ≤ buffer.capacity

namespace Buffer

/-- `Buffer::Buffer` (`Buffer.h:48-54`), which reserves the same space whatever `initSize`. -/
def new (alloc : Alloc) : Buffer where
  readPos := csPrependSize
  writePos := csPrependSize
  buffer := .reserve (csPrependSize + csInitialSize) alloc
  readPos_le := Nat.le_refl _
  writePos_le := Nat.le_trans (Nat.le_add_right ..) (Nat.le_add_right ..)
  prepend_le := Nat.le_trans (Nat.le_add_right ..) (Nat.le_add_right ..)

def readableBytes (b : Buffer) : Nat := b.writePos - b.readPos

def writeableBytes (b : Buffer) : Nat := b.buffer.capacity - b.writePos

/-- The bytes from `readPos_` to `writePos_`. -/
def readable (b : Buffer) : List UInt8 := Region.load b.buffer.mem b.readPos b.readableBytes

/-- `readPos_ = writePos_ = csPrependSize`. -/
def rewind (b : Buffer) : Buffer where
  readPos := csPrependSize
  writePos := csPrependSize
  buffer := b.buffer
  readPos_le := Nat.le_refl _
  writePos_le := b.prepend_le
  prepend_le := b.prepend_le

/-- `Buffer::prepend` (`Buffer.h:83-88`). -/
def prepend (b : Buffer) (data : List UInt8) : Except Fault Buffer :=
  if data.length ≤ b.readPos then
    .ok
      { readPos := b.readPos - data.length
        writePos := b.writePos
        buffer := b.buffer.store (b.readPos - data.length) data
        readPos_le := Nat.le_trans (Nat.sub_le ..) b.readPos_le
        writePos_le := b.writePos_le
        prepend_le := b.prepend_le }
  else .error .assertion

/-- `Buffer::retrieve` (`Buffer.h:90-103`). -/
def retrieve (b : Buffer) (len : Nat) : Except Fault Buffer :=
  if len ≤ b.readableBytes then
    if h : len < b.readableBytes then
      .ok { b with
        readPos := b.readPos + len
        readPos_le := by rw [readableBytes] at h; omega }
    else .ok b.rewind
  else .error .assertion

/-- `Buffer::reset` (`Buffer.h:105-109`). -/
def reset (b : Buffer) : Buffer where
  readPos := csPrependSize
  writePos := csPrependSize
  buffer := b.buffer.clear
  readPos_le := Nat.le_refl _
  writePos_le := b.prepend_le
  prepend_le := b.prepend_le

/-- `Buffer::read` (`Buffer.h:112-120`). -/
def read (b : Buffer) (len : Nat) : Except Fault (List UInt8 × Buffer) := do
  let str := Region.load b.buffer.mem b.readPos len
  let b ← b.retrieve len
  pure (str, b)

/-- `Buffer::readAll` (`Buffer.h:123-126`). -/
def readAll (b : Buffer) : Except Fault (List UInt8 × Buffer) := b.read b.readableBytes

/-- `Buffer::hasWritten` (`Buffer.h:129-134`). -/
def hasWritten (b : Buffer) (len : Nat) : Except Fault Buffer :=
  if h : len ≤ b.writeableBytes then
    .ok { b with
      writePos := b.writePos + len
      readPos_le := Nat.le_trans b.readPos_le (Nat.le_add_right ..)
      writePos_le := by have hw := b.writePos_le; rw [writeableBytes] at h; omega }
  else .error .assertion

/-- A copy to `peekWrite()`. -/
def poke (b : Buffer) (data : List UInt8) : Buffer :=
  { b with
    buffer := b.buffer.store b.writePos data
    writePos_le := b.writePos_le
    prepend_le := b.prepend_le }

/-- The first branch of `newSpace` (`Buffer.h:161-171`): the storage is reallocated. -/
def reallocate (b : Buffer) (len : Nat) (alloc : Alloc) : Except Fault Buffer := do
  let readLen := b.readableBytes
  let writepos := b.writePos
  let (readableData, b) ← b.read readLen
  let buffer := b.buffer.resize (writepos + len) alloc
  if h : csPrependSize + readLen ≤ buffer.capacity then
    .ok
      { readPos := csPrependSize
        writePos := csPrependSize + readLen
        buffer := buffer.store csPrependSize readableData
        readPos_le := Nat.le_add_right ..
        writePos_le := h
        prepend_le := Nat.le_trans (Nat.le_add_right ..) h }
  else .error .writePastBuffer

/-- The second branch of `newSpace` (`Buffer.h:175-180`): the readable bytes are moved to the
front. They go to `begin() + csPrependSize`, and `readPos_` to 0. -/
def shift (b : Buffer) : Buffer where
  readPos := 0
  writePos := 0 + b.readableBytes
  buffer := b.buffer.store csPrependSize b.readable
  readPos_le := Nat.zero_le _
  writePos_le := by
    have hw := b.writePos_le
    rw [readableBytes, CharVector.capacity_store]
    omega
  prepend_le := b.prepend_le

/-- The condition of the first branch (`Buffer.h:159`). Here and in `reallocate` the sums are numbers; they
are those of the source as long as they are of type `int` (`IntSums`, and `Answers` for the capacity). -/
def MustReallocate (b : Buffer) (len : Nat) : Prop :=
  b.writeableBytes + b.readPos < len + csPrependSize

instance (b : Buffer) (len : Nat) : Decidable (b.MustReallocate len) :=
  inferInstanceAs (Decidable (_ < _))

/-- The sums of `newSpace(len)` are of type `int`: the right side of the test, and the new size in the
first branch. -/
def IntSums (b : Buffer) (len : Nat) : Prop :=
  len + csPrependSize ≤ INT_MAX ∧ (b.MustReallocate len → b.writePos + len ≤ INT_MAX)

/-- An answer of the allocator whose capacity can be told by `capacity()`. -/
def Answers (b : Buffer) (len : Nat) (alloc : Alloc) : Prop :=
  b.MustReallocate len → b.writePos + len + alloc.extra ≤ INT_MAX

instance (b : Buffer) (len : Nat) : Decidable (b.IntSums len) := inferInstanceAs (Decidable (_ ∧ (_ → _)))

instance (b : Buffer) (len : Nat) (alloc : Alloc) : Decidable (b.Answers len alloc) :=
  inferInstanceAs (Decidable (_ → _))

/-- `Buffer::newSpace` (`Buffer.h:155-182`). -/
def newSpace (b : Buffer) (len : Nat) (alloc : Alloc) : Except Fault Buffer :=
  if b.MustReallocate len then b.reallocate len alloc else .ok b.shift

/-- `Buffer::ensureWritableBytes` (`Buffer.h:74-80`). -/
def ensureWritableBytes (b : Buffer) (len : Nat) (alloc : Alloc) : Except Fault Buffer :=
  if b.writeableBytes < len then b.newSpace len alloc else .ok b

/-- `Buffer::write` (`Buffer.h:191-201`). -/
def write (b : Buffer) (data : List UInt8) (alloc : Alloc) : Except Fault Buffer := do
  let b ← if b.writeableBytes < data.length then b.newSpace data.length alloc else pure b
  if data.length ≤ b.writeableBytes then (b.poke data).hasWritten data.length
  else .error .assertion

/-- `Buffer::readfd` (`Buffer.cpp:15-48`) when `readv` delivers `data`: the writable area is
filled first and the rest goes through `morebuf`. `readv` never delivers more than the two
areas hold; nothing here depends on it. -/
def readfd (b : Buffer) (data : List UInt8) (alloc : Alloc) : Except Fault Buffer :=
  let writelen := b.writeableBytes
  if data.length ≤ writelen then (b.poke data).hasWritten data.length
  else do
    let b ← (b.poke (data.take writelen)).hasWritten writelen
    b.write (data.drop writelen) alloc

end Buffer

end WebsocketCpp
