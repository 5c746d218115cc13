import Mathlib.Data.List.Basic

/-!
# Cyclic transformations of a list

`cyclicMap n f` applies `f (i % n)` to the `i`-th element: the shape of a stream masked
with an `n`-element key. It is undone by itself when every `f k` is, and it can be applied
to a block of the list on its own as soon as the block starts at a multiple of `n`.
-/

namespace WebsocketCpp

variable {α : Type}

/-- Apply `f (i % n)` to the element at index `i`. -/
def cyclicMap (n : Nat) (f : Nat → α → α) (xs : List α) : List α :=
  xs.mapIdx fun i x => f (i % n) x

@[simp] theorem length_cyclicMap (n : Nat) (f : Nat → α → α) (xs : List α) :
    (cyclicMap n f xs).length = xs.length := by
  simp [cyclicMap]

@[simp] theorem cyclicMap_eq_nil {n : Nat} {f : Nat → α → α} {xs : List α} :
    cyclicMap n f xs = [] ↔ xs = [] := by
  simp [cyclicMap]

theorem cyclicMap_cyclicMap {n : Nat} {f : Nat → α → α} (hf : ∀ k x, f k (f k x) = x)
    (xs : List α) : cyclicMap n f (cyclicMap n f xs) = xs := by
  apply List.ext_getElem
  · simp
  · intro i _ _
    simp [cyclicMap, hf]

theorem take_cyclicMap (n : Nat) (f : Nat → α → α) (xs : List α) (k : Nat) :
    (cyclicMap n f xs).take k = cyclicMap n f (xs.take k) := by
  apply List.ext_getElem
  · simp
  · intro i _ _
    simp [cyclicMap]

theorem set_cyclicMap (n : Nat) (f : Nat → α → α) (xs : List α) (i : Nat) (x : α) :
    cyclicMap n f (xs.set i x) = (cyclicMap n f xs).set i (f (i % n) x) := by
  apply List.ext_getElem
  · simp
  · intro j _ _
    simp only [cyclicMap, List.getElem_mapIdx, List.getElem_set]
    by_cases h : i = j
    · rw [if_pos h, if_pos h, h]
    · rw [if_neg h, if_neg h]

/-- Two transformations agree on a list exactly if they agree at each of its elements. -/
theorem cyclicMap_eq_iff {n : Nat} {f g : Nat → α → α} {xs : List α} :
    cyclicMap n f xs = cyclicMap n g xs ↔
      ∀ i (h : i < xs.length), f (i % n) xs[i] = g (i % n) xs[i] := by
  constructor
  · intro h i hi
    have hget := congrArg (fun l => l[i]?) h
    simpa [cyclicMap, hi] using hget
  · intro h
    apply List.ext_getElem
    · simp
    · intro i hi _
      have hlen : i < xs.length := by simpa using hi
      simpa [cyclicMap] using h i hlen

/-- A block that starts at a multiple of the period is in phase. -/
theorem drop_cyclicMap {n k : Nat} (h : n ∣ k) (f : Nat → α → α) (xs : List α) :
    (cyclicMap n f xs).drop k = cyclicMap n f (xs.drop k) := by
  obtain ⟨d, rfl⟩ := h
  apply List.ext_getElem
  · simp
  · intro i _ _
    simp [cyclicMap]

end WebsocketCpp
