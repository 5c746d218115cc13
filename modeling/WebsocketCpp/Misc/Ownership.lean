import Mathlib.Data.Finset.Basic
import Mathlib.Logic.Function.Basic

/-!
# Ownership

Resources that are held by owners, each owner holding one at most. `Exact`: what is open is what is
held, and nothing is held twice. An owner may take a resource that has just been opened, pass its own
on, or give it back; when it drops its resource instead, that stays open and is held by nobody.
-/

namespace WebsocketCpp

variable {O R : Type}

/-- Every open resource is held, by one owner, and no other is. -/
structure Exact (holds : O → Option R) (opened : Finset R) : Prop where
  mem_iff : ∀ r, r ∈ opened ↔ ∃ o, holds o = some r
  unique : ∀ o o' r, holds o = some r → holds o' = some r → o = o'

/-- An open resource that nobody holds. -/
def Leaked (holds : O → Option R) (opened : Finset R) (r : R) : Prop :=
  r ∈ opened ∧ ∀ o, holds o ≠ some r

namespace Exact

variable {holds : O → Option R} {opened : Finset R} {o o' : O} {r : R}

theorem empty : Exact (fun _ : O => (none : Option R)) ∅ where
  mem_iff _ := by simp
  unique _ _ _ h := by cases h

section DecidableOwner

variable [DecidableEq O]

/-- What is held after an owner has given up its resource. -/
theorem update_none_iff (h : Exact holds opened) (ho : holds o = some r) {q : R} :
    (∃ o', Function.update holds o none o' = some q) ↔ q ≠ r ∧ q ∈ opened := by
  rw [h.mem_iff]
  constructor
  · rintro ⟨o', ho'⟩
    have hne : o' ≠ o := by
      rintro rfl
      rw [Function.update_self] at ho'
      cases ho'
    rw [Function.update_of_ne hne] at ho'
    refine ⟨?_, o', ho'⟩
    rintro rfl
    exact hne (h.unique o' o _ ho' ho)
  · rintro ⟨hne, o', ho'⟩
    refine ⟨o', (Function.update_of_ne ?_ ..).trans ho'⟩
    rintro rfl
    exact hne (Option.some.inj (ho'.symm.trans ho))

/-- An owner drops its resource. -/
theorem leaked_drop (h : Exact holds opened) (ho : holds o = some r) :
    Leaked (Function.update holds o none) opened r := by
  refine ⟨(h.mem_iff r).mpr ⟨o, ho⟩, ?_⟩
  intro o' ho'
  exact ((h.update_none_iff ho).mp ⟨o', ho'⟩).1 rfl

end DecidableOwner

variable [DecidableEq R]

/-- Nobody takes a resource that has just been opened. -/
theorem leaked_insert (h : Exact holds opened) (hr : r ∉ opened) : Leaked holds (insert r opened) r :=
  ⟨Finset.mem_insert_self r opened, fun o ho => hr ((h.mem_iff r).mpr ⟨o, ho⟩)⟩

variable [DecidableEq O]

/-- An owner without a resource takes one that has just been opened. -/
theorem acquire (h : Exact holds opened) (hfree : holds o = none) (hr : r ∉ opened) :
    Exact (Function.update holds o (some r)) (insert r opened) where
  mem_iff q := by
    rw [Finset.mem_insert, h.mem_iff]
    constructor
    · rintro (rfl | ⟨o', ho'⟩)
      · exact ⟨o, Function.update_self ..⟩
      · refine ⟨o', (Function.update_of_ne ?_ ..).trans ho'⟩
        rintro rfl
        cases hfree.symm.trans ho'
    · rintro ⟨o', ho'⟩
      by_cases heq : o' = o
      · subst heq
        rw [Function.update_self] at ho'
        exact .inl (Option.some.inj ho').symm
      · rw [Function.update_of_ne heq] at ho'
        exact .inr ⟨o', ho'⟩
  unique o₁ o₂ q h₁ h₂ := by
    have hother : ∀ o', o' ≠ o → Function.update holds o (some r) o' = some q → q ≠ r := by
      rintro o' hne ho' rfl
      rw [Function.update_of_ne hne] at ho'
      exact hr ((h.mem_iff _).mpr ⟨o', ho'⟩)
    by_cases hne₁ : o₁ = o <;> by_cases hne₂ : o₂ = o
    · rw [hne₁, hne₂]
    · subst hne₁
      rw [Function.update_self] at h₁
      exact absurd (Option.some.inj h₁).symm (hother o₂ hne₂ h₂)
    · subst hne₂
      rw [Function.update_self] at h₂
      exact absurd (Option.some.inj h₂).symm (hother o₁ hne₁ h₁)
    · rw [Function.update_of_ne hne₁] at h₁
      rw [Function.update_of_ne hne₂] at h₂
      exact h.unique o₁ o₂ q h₁ h₂

/-- An owner gives its resource back. -/
theorem release (h : Exact holds opened) (ho : holds o = some r) :
    Exact (Function.update holds o none) (opened.erase r) where
  mem_iff q := by rw [h.update_none_iff ho, Finset.mem_erase]
  unique o₁ o₂ q h₁ h₂ := by
    have hheld : ∀ o', Function.update holds o none o' = some q → holds o' = some q := by
      intro o' ho'
      by_cases heq : o' = o
      · rw [heq, Function.update_self] at ho'
        cases ho'
      · rwa [Function.update_of_ne heq] at ho'
    exact h.unique o₁ o₂ q (hheld o₁ h₁) (hheld o₂ h₂)

/-- An owner passes its resource on to another. -/
theorem transfer (h : Exact holds opened) (ho : holds o = some r) (hfree : holds o' = none) :
    Exact (Function.update (Function.update holds o none) o' (some r)) opened := by
  have hr : r ∈ opened := (h.mem_iff r).mpr ⟨o, ho⟩
  have hne : o' ≠ o := by
    rintro rfl
    cases hfree.symm.trans ho
  have hexact := (h.release ho).acquire (o := o') (r := r)
    ((Function.update_of_ne hne ..).trans hfree) (Finset.notMem_erase r opened)
  rwa [Finset.insert_erase hr] at hexact

end Exact

end WebsocketCpp
