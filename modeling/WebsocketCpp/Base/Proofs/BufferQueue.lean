import WebsocketCpp.Base.Buffer

/-!
# The buffer as a queue

`Buffer` (`base/Buffer.h:45-210`) is a FIFO queue of bytes in every run in which `newSpace` takes its
first branch only, within the range of `int` (`refinesQueue_of_onlyReallocates`). The second branch moves
the readable bytes to `csPrependSize` but leaves `readPos_` at 0.
-/

namespace WebsocketCpp

namespace Buffer

/-- The operations, with the allocator's answer where storage may be allocated. `fill` copies
bytes to the writable area and calls `hasWritten`. -/
inductive Op where
  | write (data : List UInt8) (alloc : Alloc)
  | retrieve (len : Nat)
  | read (len : Nat)
  | readAll
  | fill (data : List UInt8)
  | ensureWritableBytes (len : Nat) (alloc : Alloc)
  | reset

/-- The operation is called within its own assertion. -/
def Op.Within (b : Buffer) : Op → Prop
  | .retrieve len | .read len => len ≤ b.readableBytes
  | .fill data => data.length ≤ b.writeableBytes
  | _ => True

def apply (b : Buffer) : Op → Except Fault Buffer
  | .write data alloc => b.write data alloc
  | .retrieve len => b.retrieve len
  | .read len => (b.read len).map Prod.snd
  | .readAll => b.readAll.map Prod.snd
  | .fill data => (b.poke data).hasWritten data.length
  | .ensureWritableBytes len alloc => b.ensureWritableBytes len alloc
  | .reset => .ok b.reset

/-- A sequence of operations. -/
def run (b : Buffer) (ops : List Op) : Except Fault Buffer := ops.foldlM apply b

/-- What an operation does to a queue. -/
def Op.onQueue (q : List UInt8) : Op → List UInt8
  | .write data _ | .fill data => q ++ data
  | .retrieve len | .read len => q.drop len
  | .readAll | .reset => []
  | .ensureWritableBytes .. => q

/-- The bytes appended and not yet retrieved. -/
def queueOf (ops : List Op) : List UInt8 := ops.foldl Op.onQueue []

/-- In every state of the run the buffer holds the queue, and an operation called within its
assertion returns. -/
structure RefinesQueue (b0 : Buffer) (ops : List Op) : Prop where
  readable_eq : ∀ before b, before <+: ops → run b0 before = .ok b → b.readable = queueOf before
  readableBytes_eq : ∀ before b, before <+: ops → run b0 before = .ok b →
    b.readableBytes = (queueOf before).length
  returns : ∀ before op after b, ops = before ++ op :: after → run b0 before = .ok b →
    op.Within b → ∃ b', b.apply op = .ok b'

/-- If it is called for `len` bytes, `newSpace` takes its first branch, and what it and `capacity()` reckon
with is of type `int`. -/
def Reallocates (b : Buffer) (len : Nat) (alloc : Alloc) : Prop :=
  b.buffer.capacity ≤ INT_MAX ∧
    (b.writeableBytes < len → b.MustReallocate len ∧ b.IntSums len ∧ b.Answers len alloc)

instance (b : Buffer) (len : Nat) (alloc : Alloc) : Decidable (b.Reallocates len alloc) :=
  inferInstanceAs (Decidable (_ ∧ (_ → _)))

/-- So it does in the operation. -/
def Op.Reallocates (b : Buffer) : Op → Prop
  | .write data alloc => b.Reallocates data.length alloc
  | .ensureWritableBytes len alloc => b.Reallocates len alloc
  | .fill _ => b.buffer.capacity ≤ INT_MAX
  | _ => True

instance (b : Buffer) : (op : Op) → Decidable (op.Reallocates b)
  | .write .. | .ensureWritableBytes .. => inferInstanceAs (Decidable (b.Reallocates _ _))
  | .fill _ => inferInstanceAs (Decidable (_ ≤ _))
  | .retrieve _ | .read _ | .readAll | .reset => inferInstanceAs (Decidable True)

/-- So it does in every operation of the run. -/
def OnlyReallocates (b : Buffer) : List Op → Prop
  | [] => True
  | op :: ops => op.Reallocates b ∧
    match b.apply op with
    | .ok b' => OnlyReallocates b' ops
    | .error _ => True

instance decidableOnlyReallocates (b : Buffer) : (ops : List Op) → Decidable (OnlyReallocates b ops)
  | [] => isTrue trivial
  | op :: ops =>
    have : Decidable (match b.apply op with
        | .ok b' => OnlyReallocates b' ops
        | .error _ => True) :=
      match b.apply op with
      | .ok b' => decidableOnlyReallocates b' ops
      | .error _ => isTrue trivial
    inferInstanceAs (Decidable (_ ∧ _))

/-! ## Single operations -/

@[simp] theorem length_readable (b : Buffer) : b.readable.length = b.readableBytes :=
  Region.length_load ..

theorem readPos_add_readableBytes (b : Buffer) : b.readPos + b.readableBytes = b.writePos := by
  have h := b.readPos_le
  rw [readableBytes]
  omega

theorem writePos_add_writeableBytes (b : Buffer) :
    b.writePos + b.writeableBytes = b.buffer.capacity := by
  have h := b.writePos_le
  rw [writeableBytes]
  omega

/-- What holds of a result of an operation: the readable bytes, and the reserved space in front
of them is kept. -/
structure Holds (q : List UInt8) (b : Buffer) : Prop where
  readable_eq : b.readable = q
  prepend_le_readPos : csPrependSize ≤ b.readPos

theorem Holds.of_empty {b : Buffer} (hread : b.readableBytes = 0)
    (hpos : csPrependSize ≤ b.readPos) :
    Holds [] b where
  readable_eq := by rw [readable, hread, Region.load_zero]
  prepend_le_readPos := hpos

theorem retrieve_spec {b : Buffer} {q : List UInt8} {len : Nat} (h : Holds q b)
    (hlen : len ≤ b.readableBytes) : ∃ b', b.retrieve len = .ok b' ∧ Holds (q.drop len) b' := by
  rw [retrieve, if_pos hlen]
  by_cases hlt : len < b.readableBytes
  · rw [dif_pos hlt]
    refine ⟨_, rfl, ?_, ?_⟩
    · show Region.load b.buffer.mem (b.readPos + len) (b.writePos - (b.readPos + len)) = _
      rw [← h.readable_eq, readable, Region.drop_load _ _ _ _ hlen, readableBytes, Nat.sub_add_eq]
    · exact Nat.le_trans h.prepend_le_readPos (Nat.le_add_right ..)
  · rw [dif_neg hlt]
    refine ⟨_, rfl, ?_⟩
    rw [List.drop_eq_nil_of_le (by rw [← h.readable_eq, length_readable]; omega)]
    exact Holds.of_empty rfl (Nat.le_refl _)

theorem read_spec {b : Buffer} {q : List UInt8} {len : Nat} (h : Holds q b)
    (hlen : len ≤ b.readableBytes) :
    ∃ b', b.read len = .ok (q.take len, b') ∧ Holds (q.drop len) b' := by
  obtain ⟨b', hb', hholds⟩ := retrieve_spec h hlen
  refine ⟨b', ?_, hholds⟩
  rw [read, hb', ← h.readable_eq, readable, Region.take_load _ _ _ _ hlen]
  rfl

theorem readAll_spec {b : Buffer} {q : List UInt8} (h : Holds q b) :
    ∃ b', b.readAll = .ok (q, b') ∧ Holds [] b' := by
  obtain ⟨b', hb', hholds⟩ := read_spec h (Nat.le_refl _)
  have hlen : b.readableBytes = q.length := by rw [← h.readable_eq, length_readable]
  rw [hlen, List.take_length] at hb'
  rw [hlen, List.drop_length] at hholds
  exact ⟨b', by rw [readAll, hlen, hb'], hholds⟩

/-- Filling the writable area. -/
theorem fill_spec {b : Buffer} {q data : List UInt8} (h : Holds q b)
    (hlen : data.length ≤ b.writeableBytes) :
    ∃ b', (b.poke data).hasWritten data.length = .ok b' ∧ Holds (q ++ data) b' := by
  have hw : data.length ≤ (b.poke data).writeableBytes := hlen
  rw [hasWritten, dif_pos hw]
  refine ⟨_, rfl, ?_, h.prepend_le_readPos⟩
  have hbytes : b.writePos + data.length - b.readPos = b.readableBytes + data.length := by
    have hle := b.readPos_le
    rw [readableBytes]
    omega
  show Region.load (Region.store b.buffer.mem b.writePos data) b.readPos
    (b.writePos + data.length - b.readPos) = _
  rw [hbytes, ← b.readPos_add_readableBytes, Region.load_store_append, ← readable, h.readable_eq]

theorem reset_holds (b : Buffer) : Holds [] b.reset := Holds.of_empty rfl (Nat.le_refl _)

/-- Reallocation keeps the readable bytes and makes room. -/
theorem reallocate_spec {b : Buffer} {q : List UInt8} {len : Nat} (alloc : Alloc)
    (h : Holds q b) :
    ∃ b', b.reallocate len alloc = .ok b' ∧ Holds q b' ∧ len ≤ b'.writeableBytes := by
  obtain ⟨b1, hb1, -⟩ := readAll_spec h
  have hcap := b1.buffer.le_capacity_resize (b.writePos + len) alloc
  have hpos := h.prepend_le_readPos
  have hsum := b.readPos_add_readableBytes
  have hfits : csPrependSize + b.readableBytes ≤
      (b1.buffer.resize (b.writePos + len) alloc).capacity := by omega
  have hlen : b.readableBytes = q.length := by rw [← h.readable_eq, length_readable]
  rw [readAll] at hb1
  rw [reallocate, hb1]
  dsimp only [bind, Except.bind]
  rw [dif_pos hfits]
  refine ⟨_, rfl, ⟨?_, Nat.le_refl _⟩, ?_⟩
  · show Region.load (Region.store _ csPrependSize q) csPrependSize
      (csPrependSize + b.readableBytes - csPrependSize) = q
    rw [Nat.add_sub_cancel_left, hlen, Region.load_store_self]
  · show len ≤ (b1.buffer.resize (b.writePos + len) alloc).capacity -
      (csPrependSize + b.readableBytes)
    omega

/-- `newSpace` in its first branch. -/
theorem newSpace_spec {b : Buffer} {q : List UInt8} {len : Nat} (alloc : Alloc) (h : Holds q b)
    (hmust : b.MustReallocate len) :
    ∃ b', b.newSpace len alloc = .ok b' ∧ Holds q b' ∧ len ≤ b'.writeableBytes := by
  rw [newSpace, if_pos hmust]
  exact reallocate_spec alloc h

theorem write_spec {b : Buffer} {q data : List UInt8} (alloc : Alloc) (h : Holds q b)
    (hshift : b.writeableBytes < data.length → b.MustReallocate data.length) :
    ∃ b', b.write data alloc = .ok b' ∧ Holds (q ++ data) b' := by
  by_cases hroom : b.writeableBytes < data.length
  · obtain ⟨b1, hb1, hholds, hw⟩ := newSpace_spec alloc h (hshift hroom)
    obtain ⟨b2, hb2, hholds2⟩ := fill_spec hholds hw
    refine ⟨b2, ?_, hholds2⟩
    rw [write, if_pos hroom, hb1]
    dsimp only [bind, Except.bind]
    rw [if_pos hw, hb2]
  · have hw : data.length ≤ b.writeableBytes := Nat.le_of_not_lt hroom
    obtain ⟨b2, hb2, hholds2⟩ := fill_spec h hw
    refine ⟨b2, ?_, hholds2⟩
    rw [write, if_neg hroom]
    dsimp only [bind, Except.bind, pure, Except.pure]
    rw [if_pos hw, hb2]

theorem ensureWritableBytes_spec {b : Buffer} {q : List UInt8} {len : Nat} (alloc : Alloc)
    (h : Holds q b) (hshift : b.writeableBytes < len → b.MustReallocate len) :
    ∃ b', b.ensureWritableBytes len alloc = .ok b' ∧ Holds q b' := by
  by_cases hroom : b.writeableBytes < len
  · obtain ⟨b1, hb1, hholds, -⟩ := newSpace_spec alloc h (hshift hroom)
    exact ⟨b1, by rw [ensureWritableBytes, if_pos hroom, hb1], hholds⟩
  · exact ⟨b, by rw [ensureWritableBytes, if_neg hroom], h⟩

/-- After a reset `readfd` leaves exactly what was delivered in the buffer: what the writable area
does not hold makes it reallocate. -/
theorem readfd_reset_spec (b : Buffer) (data : List UInt8) (alloc : Alloc) :
    ∃ b', b.reset.readfd data alloc = .ok b' ∧ Holds data b' := by
  by_cases hlen : data.length ≤ b.reset.writeableBytes
  · rw [readfd, if_pos hlen]
    exact fill_spec (reset_holds b) hlen
  · have htake : (data.take b.reset.writeableBytes).length = b.reset.writeableBytes :=
      List.length_take_of_le (Nat.le_of_not_le hlen)
    obtain ⟨b1, hb1, hholds1⟩ := fill_spec (reset_holds b) (Nat.le_of_eq htake)
    rw [htake] at hb1
    have hfull : b1.writeableBytes = 0 ∧ b1.readPos = csPrependSize := by
      have hw : b.reset.writeableBytes ≤
          (b.reset.poke (data.take b.reset.writeableBytes)).writeableBytes := Nat.le_refl _
      rw [hasWritten, dif_pos hw] at hb1
      cases hb1
      refine ⟨?_, rfl⟩
      show b.reset.buffer.capacity - (b.reset.writePos + b.reset.writeableBytes) = 0
      rw [b.reset.writePos_add_writeableBytes, Nat.sub_self]
    have hshift : b1.writeableBytes < (data.drop b.reset.writeableBytes).length →
        b1.MustReallocate (data.drop b.reset.writeableBytes).length := by
      intro _
      rw [MustReallocate, hfull.2]
      omega
    obtain ⟨b2, hb2, hholds2⟩ := write_spec alloc hholds1 hshift
    refine ⟨b2, ?_, ?_⟩
    · rw [readfd, if_neg hlen, hb1]
      exact hb2
    · rw [List.nil_append, List.take_append_drop] at hholds2
      exact hholds2

/-! ## Runs -/

/-- One operation acts on the buffer as on the queue, as long as `newSpace` reallocates. -/
theorem apply_spec {b : Buffer} {q : List UInt8} {op : Op} (h : Holds q b) (hw : op.Within b)
    (hreallocates : op.Reallocates b) : ∃ b', b.apply op = .ok b' ∧ Holds (op.onQueue q) b' := by
  cases op with
  | write data alloc => exact write_spec alloc h fun hroom => (hreallocates.2 hroom).1
  | retrieve len => exact retrieve_spec h hw
  | read len =>
      obtain ⟨b', hb', hholds⟩ := read_spec h hw
      exact ⟨b', by rw [apply, hb']; rfl, hholds⟩
  | readAll =>
      obtain ⟨b', hb', hholds⟩ := readAll_spec h
      exact ⟨b', by rw [apply, hb']; rfl, hholds⟩
  | fill data => exact fill_spec h hw
  | ensureWritableBytes len alloc =>
      exact ensureWritableBytes_spec alloc h fun hroom => (hreallocates.2 hroom).1
  | reset => exact ⟨b.reset, rfl, reset_holds b⟩

/-- An operation that returns was called within its assertion. -/
theorem within_of_apply {b b' : Buffer} {op : Op} (h : b.apply op = .ok b') : op.Within b := by
  cases op with
  | write | readAll | ensureWritableBytes | reset => trivial
  | retrieve len =>
      by_contra hw
      have hw' : ¬len ≤ b.readableBytes := hw
      rw [apply, retrieve, if_neg hw'] at h
      cases h
  | read len =>
      by_contra hw
      have hw' : ¬len ≤ b.readableBytes := hw
      rw [apply, read, retrieve, if_neg hw'] at h
      cases h
  | fill data =>
      by_contra hw
      have hw' : ¬data.length ≤ (b.poke data).writeableBytes := hw
      rw [apply, hasWritten, dif_neg hw'] at h
      cases h

theorem run_cons (b : Buffer) (op : Op) (ops : List Op) :
    run b (op :: ops) = b.apply op >>= fun b' => run b' ops := rfl

/-- A run that only reallocates carries the queue along, and its next operation returns. -/
theorem holds_of_run {ops : List Op} {b : Buffer} {q : List UInt8} (h : Holds q b)
    (honly : OnlyReallocates b ops) {before after : List Op} (hops : ops = before ++ after)
    {b' : Buffer} (hrun : run b before = .ok b') :
    Holds (before.foldl Op.onQueue q) b' ∧ OnlyReallocates b' after := by
  induction before generalizing ops b q with
  | nil =>
      cases hrun
      rw [hops] at honly
      exact ⟨h, honly⟩
  | cons op before ih =>
      subst hops
      obtain ⟨hreallocates, hrest⟩ := honly
      rw [run_cons] at hrun
      cases hb1 : b.apply op with
      | error e =>
          rw [hb1] at hrun
          cases hrun
      | ok b1 =>
          rw [hb1] at hrun hrest
          obtain ⟨b2, hb2, hholds⟩ := apply_spec h (within_of_apply hb1) hreallocates
          cases hb2.symm.trans hb1
          exact ih hholds hrest rfl hrun

/-- In every run in which `newSpace` only reallocates, within the range of `int`, the buffer is a FIFO
queue. -/
theorem refinesQueue_of_onlyReallocates (alloc : Alloc) (ops : List Op)
    (honly : OnlyReallocates (.new alloc) ops) : RefinesQueue (.new alloc) ops := by
  have h0 : Holds [] (Buffer.new alloc) := Holds.of_empty rfl (Nat.le_refl _)
  refine ⟨?_, ?_, ?_⟩
  · rintro before b ⟨after, rfl⟩ hrun
    exact (holds_of_run h0 honly rfl hrun).1.readable_eq
  · rintro before b ⟨after, rfl⟩ hrun
    rw [← length_readable, (holds_of_run h0 honly rfl hrun).1.readable_eq]
    rfl
  · rintro before op after b rfl hrun hw
    obtain ⟨hholds, hnext⟩ := holds_of_run h0 honly rfl hrun
    obtain ⟨b', hb', -⟩ := apply_spec hholds hw hnext.1
    exact ⟨b', hb'⟩

/-- Fill the storage, retrieve a part, and write more than fits. -/
def overflow : List Op :=
  [.write (List.replicate 4096 1) ⟨0, fun _ => 0⟩, .retrieve 100, .read 10,
    .write (List.replicate 120 2) ⟨0, fun _ => 0⟩]

theorem refinesQueue_overflow : RefinesQueue (.new ⟨0, fun _ => 0⟩) overflow :=
  refinesQueue_of_onlyReallocates ⟨0, fun _ => 0⟩ overflow (by decide +kernel)

/-- Fill the storage, retrieve a part, and write what just fits. -/
def refill : List Op :=
  [.write (List.replicate 4096 1) ⟨0, fun _ => 0⟩, .retrieve 100,
    .write (List.replicate 50 2) ⟨0, fun _ => 0⟩]

/-- The write that just fits leaves bytes of the reserved space in front of the queue. -/
theorem not_refinesQueue_refill : ¬RefinesQueue (.new ⟨0, fun _ => 0⟩) refill := by
  intro h
  have hhead : (run (.new ⟨0, fun _ => 0⟩) refill).map (fun b => b.readable.head?) =
      .ok (some 0) := by
    decide +kernel
  cases hb : run (.new ⟨0, fun _ => 0⟩) refill with
  | error e => rw [hb] at hhead; cases hhead
  | ok b =>
      have hread := h.readable_eq refill b (List.prefix_refl _) hb
      rw [hb] at hhead
      have hzero : b.readable.head? = some 0 := Except.ok.inj hhead
      rw [hread] at hzero
      exact absurd hzero (by decide +kernel)

end Buffer

end WebsocketCpp
