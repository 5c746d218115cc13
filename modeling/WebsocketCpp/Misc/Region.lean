import Mathlib.Data.List.Basic

/-!
# Regions of memory

A block of memory is a function from offsets to cells. `load` reads a region as a list
and `store` overwrites one; the lemmas say what a load sees of an earlier store. Bounds
are the business of whoever owns the block.
-/

namespace WebsocketCpp

namespace Region

variable {α : Type}

/-- The `n` cells from offset `off` on. -/
def load (m : Nat → α) (off n : Nat) : List α := (List.range n).map fun i => m (off + i)

/-- The block with `xs` written from offset `off` on. -/
def store (m : Nat → α) (off : Nat) (xs : List α) : Nat → α := fun k =>
  if k < off then m k else xs[k - off]?.getD (m k)

@[simp] theorem length_load (m : Nat → α) (off n : Nat) : (load m off n).length = n := by
  simp [load]

@[simp] theorem load_zero (m : Nat → α) (off : Nat) : load m off 0 = [] := rfl

theorem getElem_load (m : Nat → α) (off n i : Nat) (h : i < (load m off n).length) :
    (load m off n)[i] = m (off + i) := by
  simp [load]

theorem store_below {m : Nat → α} {off k : Nat} (xs : List α) (h : k < off) :
    store m off xs k = m k := if_pos h

theorem store_at {m : Nat → α} {off i : Nat} {xs : List α} (h : i < xs.length) :
    store m off xs (off + i) = xs[i] := by
  rw [store, if_neg (by omega), Nat.add_sub_cancel_left, List.getElem?_eq_getElem h]
  rfl

/-- Two loads of the same cells agree. -/
theorem load_congr {m m' : Nat → α} {off n : Nat} (h : ∀ i, i < n → m (off + i) = m' (off + i)) :
    load m off n = load m' off n := by
  apply List.map_congr_left
  intro i hi
  exact h i (List.mem_range.mp hi)

theorem load_add (m : Nat → α) (off a b : Nat) :
    load m off (a + b) = load m off a ++ load m (off + a) b := by
  simp [load, List.range_add, Function.comp_def, Nat.add_assoc]

theorem load_store_self (m : Nat → α) (off : Nat) (xs : List α) :
    load (store m off xs) off xs.length = xs := by
  apply List.ext_getElem
  · simp
  · intro i _ hi
    rw [getElem_load, store_at hi]

theorem load_store_below {m : Nat → α} {off o n : Nat} (xs : List α) (h : o + n ≤ off) :
    load (store m off xs) o n = load m o n := by
  apply load_congr
  intro i hi
  exact store_below xs (by omega)

/-- Storing right behind a region appends to what the region holds. -/
theorem load_store_append (m : Nat → α) (off n : Nat) (xs : List α) :
    load (store m (off + n) xs) off (n + xs.length) = load m off n ++ xs := by
  rw [load_add, load_store_below xs (Nat.le_refl _), load_store_self]

theorem take_load (m : Nat → α) (off n k : Nat) (h : k ≤ n) :
    (load m off n).take k = load m off k := by
  obtain ⟨d, rfl⟩ := Nat.le.dest h
  rw [load_add, List.take_left' (by simp)]

theorem drop_load (m : Nat → α) (off n k : Nat) (h : k ≤ n) :
    (load m off n).drop k = load m (off + k) (n - k) := by
  obtain ⟨d, rfl⟩ := Nat.le.dest h
  rw [load_add, List.drop_left' (by simp), Nat.add_sub_cancel_left]

end Region

end WebsocketCpp
