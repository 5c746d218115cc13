import Mathlib.Logic.Function.Basic

/-!
# Objects at addresses

A heap is a function from addresses to the objects that are there. What is found after one address
has been written, in terms of what was found before.
-/

namespace WebsocketCpp.Heap

variable {α β : Type} [DecidableEq α] {heap : α → Option β} {p q : α} {a b : β}

/-- An object that is found is the one that has been written, or was there. -/
theorem update_some_iff :
    Function.update heap p (some a) q = some b ↔ q = p ∧ b = a ∨ q ≠ p ∧ heap q = some b := by
  by_cases heq : q = p
  · subst heq
    simp [eq_comm]
  · simp [heq]

theorem update_none_iff : Function.update heap p none q = some b ↔ q ≠ p ∧ heap q = some b := by
  by_cases heq : q = p
  · subst heq
    simp
  · simp [heq]

/-- What is written to a free address overwrites nothing. -/
theorem update_of_free (hfree : heap p = none) (h : heap q = some b) (o : Option β) :
    Function.update heap p o q = some b := by
  refine (Function.update_of_ne ?_ ..).trans h
  rintro rfl
  rw [hfree] at h
  cases h

end WebsocketCpp.Heap
