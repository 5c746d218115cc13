import WebsocketCpp.Misc.Run
import WebsocketCpp.Base.Proofs.BufferQueue

/-!
# Room for more

`newSpace(len)` promises `len` writable bytes (`base/Buffer.h:155-182`), which `write` relies on and
asserts (`Buffer.h:191-201`). The first branch asks for `writePos_ + len` bytes but leaves the
readable ones at `csPrependSize`, so that they have to have been there or behind: `growth_iff`. A
`prepend` and the second branch put `readPos_` in front of it.
-/

namespace WebsocketCpp

namespace Buffer

/-! ## The promise -/

/-- The buffer has room for `len` bytes behind the same number of readable ones. -/
def RoomAfter (b : Buffer) (len : Nat) (x : Except Fault Buffer) : Prop :=
  ∃ b', x = .ok b' ∧ b'.readPos ≤ b'.writePos ∧ len ≤ b'.writeableBytes ∧
    b'.readableBytes = b.readableBytes

/-- `newSpace(len)` keeps its promise, however much capacity the vector takes. -/
def NewSpaceKeeps (b : Buffer) (len : Nat) : Prop :=
  b.IntSums len ∧ ∀ alloc, b.Answers len alloc → b.RoomAfter len (b.newSpace len alloc)

/-- So does `ensureWritableBytes(len)`. -/
def EnsureKeeps (b : Buffer) (len : Nat) : Prop :=
  (b.writeableBytes < len → b.IntSums len) ∧
    ∀ alloc, b.Answers len alloc → b.RoomAfter len (b.ensureWritableBytes len alloc)

/-- A `write` of `data` passes its assertion. -/
def WriteReturns (b : Buffer) (data : List UInt8) : Prop :=
  (b.writeableBytes < data.length → b.IntSums data.length) ∧
    ∀ alloc, b.Answers data.length alloc → ∃ b', b.write data alloc = .ok b'

/-- The sums are of type `int`, and a reallocation finds the readable bytes at `csPrependSize` or
behind. -/
def CanGrow (b : Buffer) (len : Nat) : Prop :=
  b.IntSums len ∧ (b.MustReallocate len → csPrependSize ≤ b.readPos)

/-! ## Runs -/

/-- The operations, with the allocator's answer where storage may be allocated. -/
inductive GrowthOp where
  | write (data : List UInt8) (alloc : Alloc)
  | retrieve (len : Nat)
  | read (len : Nat)
  | prepend (data : List UInt8)
  | reset

def GrowthOp.apply (b : Buffer) : GrowthOp → Except Fault Buffer
  | .write data alloc => b.write data alloc
  | .retrieve len => b.retrieve len
  | .read len => (b.read len).map Prod.snd
  | .prepend data => b.prepend data
  | .reset => .ok b.reset

/-- The operation is called within its own assertion on its argument. -/
def GrowthOp.Within (b : Buffer) : GrowthOp → Prop
  | .write data alloc => b.writeableBytes < data.length → b.Answers data.length alloc
  | .retrieve len | .read len => len ≤ b.readableBytes
  | .prepend data => data.length ≤ b.readPos
  | .reset => True

/-- A `write` that needs more room can have it. -/
def GrowthOp.Grows (b : Buffer) : GrowthOp → Prop
  | .write data _ => b.writeableBytes < data.length → b.CanGrow data.length
  | .retrieve _ | .read _ | .prepend _ | .reset => True

/-- A buffer under its operations. -/
def growth : Machine Buffer GrowthOp Empty Fault where
  step b op := .ofExcept (op.apply b)
  Allowed b op := op.Within b

end Buffer

namespace CharVector

theorem capacity_resize (v : CharVector) (n : Nat) (alloc : Alloc) :
    (v.resize n alloc).capacity = if n ≤ v.capacity then v.capacity else n + alloc.extra := by
  unfold resize
  split <;> rfl

end CharVector

namespace Buffer

/-! ## One call -/

theorem mustReallocate_iff {b : Buffer} {len : Nat} :
    b.MustReallocate len ↔ b.buffer.capacity < b.readableBytes + len + csPrependSize := by
  have hsum := b.readPos_add_readableBytes
  have hcap := b.writePos_add_writeableBytes
  unfold MustReallocate
  omega

theorem read_all_eq (b : Buffer) : b.read b.readableBytes = .ok (b.readable, b.rewind) := by
  rw [read, retrieve, if_pos (Nat.le_refl _), dif_neg (Nat.lt_irrefl _)]
  rfl

/-- A reallocation makes room exactly if the new capacity holds the reserved space, the readable bytes
and `len` more. -/
theorem roomAfter_reallocate_iff (b : Buffer) (len : Nat) (alloc : Alloc) :
    b.RoomAfter len (b.reallocate len alloc) ↔
      csPrependSize + b.readableBytes + len ≤
        (b.buffer.resize (b.writePos + len) alloc).capacity := by
  rw [reallocate, read_all_eq]
  dsimp only [bind, Except.bind]
  by_cases h : csPrependSize + b.readableBytes ≤
      (b.rewind.buffer.resize (b.writePos + len) alloc).capacity
  · rw [dif_pos h]
    constructor
    · rintro ⟨b', hb', -, hroom, -⟩
      cases hb'
      change len ≤ (b.rewind.buffer.resize (b.writePos + len) alloc).capacity -
        (csPrependSize + b.readableBytes) at hroom
      change _ ≤ (b.rewind.buffer.resize (b.writePos + len) alloc).capacity
      omega
    · intro hroom
      refine ⟨_, rfl, Nat.le_add_right .., ?_, Nat.add_sub_cancel_left ..⟩
      change _ ≤ (b.rewind.buffer.resize (b.writePos + len) alloc).capacity at hroom
      change len ≤ (b.rewind.buffer.resize (b.writePos + len) alloc).capacity -
        (csPrependSize + b.readableBytes)
      omega
  · rw [dif_neg h]
    refine iff_of_false ?_ ?_
    · rintro ⟨b', hb', -⟩
      cases hb'
    · intro hroom
      exact h (Nat.le_trans (Nat.le_add_right ..) hroom)

/-- The second branch always makes room. -/
theorem roomAfter_shift {b : Buffer} {len : Nat} (h : ¬b.MustReallocate len) :
    b.RoomAfter len (.ok b.shift) := by
  rw [mustReallocate_iff] at h
  refine ⟨b.shift, rfl, Nat.zero_le _, ?_, ?_⟩
  · show len ≤ b.buffer.capacity - (0 + b.readableBytes)
    omega
  · show 0 + b.readableBytes - 0 = b.readableBytes
    omega

/-- A vector that takes no more than it is asked for, and any other. -/
theorem roomAfter_reallocate_all {b : Buffer} {len : Nat} (hmust : b.MustReallocate len)
    (hsize : b.writePos + len ≤ INT_MAX) :
    (∀ alloc, b.Answers len alloc → b.RoomAfter len (b.reallocate len alloc)) ↔
      csPrependSize ≤ b.readPos := by
  have hsum := b.readPos_add_readableBytes
  have hcap := mustReallocate_iff.mp hmust
  constructor
  · intro h
    have hexact := (roomAfter_reallocate_iff ..).mp (h ⟨0, fun _ => 0⟩ fun _ => hsize)
    rw [CharVector.capacity_resize] at hexact
    split at hexact
    · omega
    · change _ ≤ b.writePos + len + 0 at hexact
      omega
  · intro hpos alloc _
    rw [roomAfter_reallocate_iff]
    have hle := b.buffer.le_capacity_resize (b.writePos + len) alloc
    omega

theorem newSpaceKeeps_iff (b : Buffer) (len : Nat) : b.NewSpaceKeeps len ↔ b.CanGrow len := by
  refine and_congr_right ?_
  rintro ⟨-, hsize⟩
  by_cases hmust : b.MustReallocate len
  · simp only [newSpace, hmust, if_true, forall_const]
    exact roomAfter_reallocate_all hmust (hsize hmust)
  · simp only [newSpace, hmust, if_false, false_imp_iff, iff_true]
    intro alloc _
    exact roomAfter_shift hmust

theorem ensureKeeps_iff (b : Buffer) (len : Nat) :
    b.EnsureKeeps len ↔ (b.writeableBytes < len → b.CanGrow len) := by
  by_cases hroom : b.writeableBytes < len
  · simp only [EnsureKeeps, ensureWritableBytes, hroom, if_true, forall_const]
    exact b.newSpaceKeeps_iff len
  · simp only [EnsureKeeps, ensureWritableBytes, hroom, if_false, false_imp_iff, true_and, iff_true]
    intro alloc _
    exact ⟨b, rfl, b.readPos_le, Nat.le_of_not_lt hroom, rfl⟩

theorem readableBytes_reallocate {b b' : Buffer} {len : Nat} {alloc : Alloc}
    (h : b.reallocate len alloc = .ok b') : b'.readableBytes = b.readableBytes := by
  rw [reallocate, read_all_eq] at h
  dsimp only [bind, Except.bind] at h
  split at h
  · cases h
    exact Nat.add_sub_cancel_left ..
  · cases h

/-- Making room leaves the number of readable bytes as it is. -/
theorem readableBytes_ensureWritableBytes {b b' : Buffer} {len : Nat} {alloc : Alloc}
    (h : b.ensureWritableBytes len alloc = .ok b') : b'.readableBytes = b.readableBytes := by
  unfold ensureWritableBytes newSpace at h
  split at h
  · split at h
    · exact readableBytes_reallocate h
    · cases h
      show 0 + b.readableBytes - 0 = b.readableBytes
      omega
  · cases h
    rfl

theorem write_eq (b : Buffer) (data : List UInt8) (alloc : Alloc) :
    b.write data alloc = b.ensureWritableBytes data.length alloc >>= fun b1 =>
      if data.length ≤ b1.writeableBytes then (b1.poke data).hasWritten data.length
      else .error .assertion := by
  unfold write ensureWritableBytes
  split <;> rfl

/-- A write makes room, and its assertion asks for that room. -/
theorem returns_write_iff (b : Buffer) (data : List UInt8) (alloc : Alloc) :
    (∃ b', b.write data alloc = .ok b') ↔
      b.RoomAfter data.length (b.ensureWritableBytes data.length alloc) := by
  rw [write_eq]
  cases hb1 : b.ensureWritableBytes data.length alloc with
  | error e =>
      refine iff_of_false ?_ ?_
      · rintro ⟨b', hb'⟩
        cases hb'
      · rintro ⟨b', hb', -⟩
        cases hb'
  | ok b1 =>
      dsimp only [bind, Except.bind]
      by_cases hroom : data.length ≤ b1.writeableBytes
      · rw [if_pos hroom]
        refine iff_of_true ?_ ⟨b1, rfl, b1.readPos_le, hroom, readableBytes_ensureWritableBytes hb1⟩
        exact ⟨_, dif_pos hroom⟩
      · rw [if_neg hroom]
        refine iff_of_false ?_ ?_
        · rintro ⟨b', hb'⟩
          cases hb'
        · rintro ⟨b', hb', -, h, -⟩
          cases hb'
          exact hroom h

theorem writeReturns_iff (b : Buffer) (data : List UInt8) :
    b.WriteReturns data ↔ (b.writeableBytes < data.length → b.CanGrow data.length) := by
  rw [← ensureKeeps_iff]
  simp only [WriteReturns, EnsureKeeps, returns_write_iff]

/-! ## Runs -/

theorem returns_retrieve {b : Buffer} {len : Nat} (h : len ≤ b.readableBytes) :
    ∃ b', b.retrieve len = .ok b' := by
  rw [retrieve, if_pos h]
  split
  · exact ⟨_, rfl⟩
  · exact ⟨_, rfl⟩

/-- An operation within its assertion returns, a `write` where the buffer can grow. -/
theorem returns_apply {b : Buffer} {op : GrowthOp} (h : op.Within b) (hgrow : op.Grows b) :
    ∃ b', op.apply b = .ok b' := by
  cases op with
  | write data alloc =>
      rw [GrowthOp.apply, returns_write_iff]
      by_cases hroom : b.writeableBytes < data.length
      · exact ((b.ensureKeeps_iff _).mpr hgrow).2 alloc (h hroom)
      · rw [ensureWritableBytes, if_neg hroom]
        exact ⟨b, rfl, b.readPos_le, Nat.le_of_not_lt hroom, rfl⟩
  | retrieve len => exact returns_retrieve h
  | read len =>
      rcases returns_retrieve h with ⟨b', hb'⟩
      refine ⟨b', ?_⟩
      rw [GrowthOp.apply, read, hb']
      rfl
  | prepend data => exact ⟨_, if_pos h⟩
  | reset => exact ⟨b.reset, rfl⟩

theorem growth_succeeds : (growth.restrict fun b op => op.Grows b).Succeeds fun _ => True := by
  intro b op _ h
  exact returns_apply h.1 h.2

/-- In every state of every run `newSpace`, `ensureWritableBytes` and `write` keep the promise exactly
where the buffer can grow, and no assertion fails in a run that grows only where it can. -/
theorem growth_iff (alloc : Alloc) (ops : List GrowthOp) :
    (∀ before b, before <+: ops → (growth.run (.new alloc) before).result = .ok b →
      (∀ len, (b.NewSpaceKeeps len ↔ b.CanGrow len) ∧
        (b.EnsureKeeps len ↔ (b.writeableBytes < len → b.CanGrow len))) ∧
      ∀ data, b.WriteReturns data ↔ (b.writeableBytes < data.length → b.CanGrow data.length)) ∧
    ((growth.restrict fun b op => op.Grows b).Legal (.new alloc) ops →
      ∃ b, (growth.run (.new alloc) ops).result = .ok b) := by
  constructor
  · intro before b _ _
    exact ⟨fun len => ⟨b.newSpaceKeeps_iff len, b.ensureKeeps_iff len⟩, b.writeReturns_iff⟩
  · intro hlegal
    have hinv : (growth.restrict fun b op => op.Grows b).Invariant fun _ => True :=
      fun _ _ _ _ _ _ => trivial
    exact hinv.exists_run growth_succeeds trivial hlegal

/-- Read a part, then write what the storage does not hold. -/
def enlarge : List GrowthOp :=
  [.write [1, 2, 3] ⟨0, fun _ => 0⟩, .retrieve 1, .write (List.replicate 4096 4) ⟨0, fun _ => 0⟩]

theorem growth_iff_enlarge :
    ∃ b b', (growth.run (.new ⟨0, fun _ => 0⟩) (enlarge.take 2)).result = .ok b ∧
      b.MustReallocate 4096 ∧ b.NewSpaceKeeps 4096 ∧
      (growth.run (.new ⟨0, fun _ => 0⟩) enlarge).result = .ok b' := by
  rcases growth_iff ⟨0, fun _ => 0⟩ enlarge with ⟨hkeeps, hreturns⟩
  have hlen : (List.replicate 4096 (4 : UInt8)).length = 4096 := List.length_replicate
  have hlegal : (growth.restrict fun b op => op.Grows b).Legal (.new ⟨0, fun _ => 0⟩) enlarge := by
    refine ⟨⟨fun h => absurd h (by decide), fun h => absurd h (by decide)⟩, ?_⟩
    rintro b1 hb1
    cases hb1
    refine ⟨⟨show (1 : Nat) ≤ 3 by decide, trivial⟩, ?_⟩
    rintro b2 hb2
    cases hb2
    refine ⟨⟨fun _ _ => ?_, fun _ => ⟨⟨?_, fun _ => ?_⟩, fun _ => ?_⟩⟩, fun _ _ => trivial⟩
    · rw [hlen]
      decide
    · rw [hlen]
      decide
    · rw [hlen]
      decide
    · decide
  rcases hreturns hlegal with ⟨b', hb'⟩
  refine ⟨_, b', rfl, by decide, ?_, hb'⟩
  rw [((hkeeps (enlarge.take 2) _ (List.take_prefix ..) rfl).1 4096).1]
  exact ⟨⟨by decide, fun _ => by decide⟩, fun _ => by decide⟩

/-- A byte in front of the readable ones. -/
def inFront : List GrowthOp := [.prepend [1]]

/-- After a `prepend` the new storage is a byte short, and the assertion of `write` fails. -/
theorem not_newSpaceKeeps : ∃ b, growth.Legal (.new ⟨0, fun _ => 0⟩) inFront ∧
    (growth.run (.new ⟨0, fun _ => 0⟩) inFront).result = .ok b ∧
    ¬b.NewSpaceKeeps 4097 ∧ ¬b.EnsureKeeps 4097 ∧
    b.write (List.replicate 4097 0) ⟨0, fun _ => 0⟩ = .error .assertion := by
  refine ⟨_, ⟨show (1 : Nat) ≤ 8 by decide, fun _ _ => trivial⟩, rfl, ?_, ?_, ?_⟩
  · rw [newSpaceKeeps_iff]
    intro h
    exact absurd (h.2 (by decide)) (by decide)
  · rw [ensureKeeps_iff]
    intro h
    exact absurd ((h (by decide)).2 (by decide)) (by decide)
  · rw [write_eq, List.length_replicate]
    rfl

end Buffer

end WebsocketCpp
