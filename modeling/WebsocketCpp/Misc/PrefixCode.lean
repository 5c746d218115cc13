import Mathlib.Data.List.Infix

/-!
# Prefix codes

Code words of which none is empty and none the front of another one. What has been encoded can be cut
into its code words in one way only, and the front of an encoding that is one itself is the encoding
of the front.
-/

namespace WebsocketCpp

/-- No code word is empty or the front of another one. -/
structure PrefixCode {α β : Type} (code : α → List β) : Prop where
  ne_nil : ∀ a, code a ≠ []
  eq_of_prefix : ∀ {a b}, code a <+: code b → a = b

namespace PrefixCode

variable {α β : Type} {code : α → List β}

/-- Two code words at the front of the same list are the same. -/
theorem eq_of_append_eq (h : PrefixCode code) {a b : α} {xs ys : List β}
    (heq : code a ++ xs = code b ++ ys) : a = b := by
  have ha : code a <+: code b ++ ys := heq ▸ List.prefix_append ..
  rcases List.prefix_or_prefix_of_prefix ha (List.prefix_append ..) with hab | hba
  · exact h.eq_of_prefix hab
  · exact (h.eq_of_prefix hba).symm

/-- The front of an encoding is the encoding of the front. -/
theorem flatMap_prefix_iff (h : PrefixCode code) {xs ys : List α} :
    xs.flatMap code <+: ys.flatMap code ↔ xs <+: ys := by
  constructor
  · intro hpre
    induction xs generalizing ys with
    | nil => exact List.nil_prefix
    | cons x xs ih =>
        rcases hpre with ⟨rest, hrest⟩
        rw [List.flatMap_cons, List.append_assoc] at hrest
        cases ys with
        | nil => exact absurd (List.append_eq_nil_iff.mp hrest).1 (h.ne_nil x)
        | cons y ys =>
            rw [List.flatMap_cons] at hrest
            rcases h.eq_of_append_eq hrest
            exact List.prefix_cons_inj x |>.mpr (ih ⟨rest, List.append_cancel_left hrest⟩)
  · rintro ⟨rest, rfl⟩
    rw [List.flatMap_append]
    exact List.prefix_append ..

/-- An encoding can be read in one way only. -/
theorem flatMap_injective (h : PrefixCode code) {xs ys : List α}
    (heq : xs.flatMap code = ys.flatMap code) : xs = ys := by
  have hxy : xs <+: ys := h.flatMap_prefix_iff.mp (heq ▸ List.prefix_refl _)
  have hyx : ys <+: xs := h.flatMap_prefix_iff.mp (heq ▸ List.prefix_refl _)
  exact hxy.eq_of_length_le hyx.length_le

/-- The first code words are determined, whatever follows them. -/
theorem flatMap_append_cancel (h : PrefixCode code) {xs ys : List α} (hlen : xs.length = ys.length)
    {rest rest' : List β} (heq : xs.flatMap code ++ rest = ys.flatMap code ++ rest') :
    xs = ys ∧ rest = rest' := by
  induction xs generalizing ys with
  | nil =>
      rcases List.length_eq_zero_iff.mp hlen.symm
      exact ⟨rfl, heq⟩
  | cons x xs ih =>
      cases ys with
      | nil => cases hlen
      | cons y ys =>
          rw [List.flatMap_cons, List.flatMap_cons, List.append_assoc, List.append_assoc] at heq
          rcases h.eq_of_append_eq heq
          rcases ih (Nat.succ.inj hlen) (List.append_cancel_left heq) with ⟨rfl, rfl⟩
          exact ⟨rfl, rfl⟩

end PrefixCode

end WebsocketCpp
