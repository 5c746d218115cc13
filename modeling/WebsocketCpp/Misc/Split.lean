import Mathlib.Data.List.Basic
import Mathlib.Data.Nat.Find

/-!
# Splitting at a separator

The left-to-right scan of a list for a separator, which is not empty and may overlap with itself. An
empty piece is left out at the end and nowhere else. `Scan` is the scan as a derivation over what is
still to be read; `findFrom` looks for the next occurrence by position.
-/

namespace WebsocketCpp

variable {α : Type}

/-- In `pre ++ sep ++ rest`, `sep` occurs for the first time behind `pre`. -/
def FirstBehind (sep pre rest : List α) : Prop :=
  ∀ i < pre.length, ¬sep <+: (pre ++ sep ++ rest).drop i

/-- The pieces that the scan finds. -/
inductive Scan (sep : List α) : List α → List (List α) → Prop
  | nil : Scan sep [] []
  | last {s : List α} : s ≠ [] → ¬sep <:+: s → Scan sep s [s]
  | cons {pre rest : List α} {pieces : List (List α)} : FirstBehind sep pre rest →
      Scan sep rest pieces → Scan sep (pre ++ sep ++ rest) (pre :: pieces)

theorem infix_of_prefix_drop {sep s : List α} {i : Nat} (h : sep <+: s.drop i) : sep <:+: s :=
  h.isInfix.trans (List.drop_suffix i s).isInfix

theorem exists_prefix_drop {sep s : List α} (h : sep <:+: s) : ∃ i ≤ s.length, sep <+: s.drop i := by
  rcases h with ⟨pre, rest, rfl⟩
  refine ⟨pre.length, ?_, rest, ?_⟩
  · simp only [List.length_append]
    omega
  · rw [List.append_assoc, List.drop_left]

/-- Every list can be scanned for a separator that is not empty. -/
theorem exists_scan [DecidableEq α] {sep : List α} (hsep : sep ≠ []) (s : List α) :
    ∃ pieces, Scan sep s pieces := by
  induction hn : s.length using Nat.strongRecOn generalizing s with
  | ind n ih =>
      by_cases hin : sep <:+: s
      · have hex : ∃ i, sep <+: s.drop i := (exists_prefix_drop hin).imp fun _ h => h.2
        rcases Nat.find_spec hex with ⟨rest, hrest⟩
        have hs : s = s.take (Nat.find hex) ++ sep ++ rest := by
          rw [List.append_assoc, hrest, List.take_append_drop]
        have hpos := List.length_pos_iff.mpr hsep
        have hlen := congrArg List.length hs
        simp only [List.length_append] at hlen
        rcases ih rest.length (by omega) rest rfl with ⟨pieces, hpieces⟩
        rw [hs]
        refine ⟨_, .cons ?_ hpieces⟩
        intro i hi
        rw [← hs]
        exact Nat.find_min hex (Nat.lt_of_lt_of_le hi (List.length_take_le ..))
      · by_cases hnil : s = []
        · subst hnil
          exact ⟨_, .nil⟩
        · exact ⟨_, .last hnil hin⟩

theorem Scan.eq_nil_iff {sep s : List α} {pieces : List (List α)} (hsep : sep ≠ [])
    (h : Scan sep s pieces) : pieces = [] ↔ s = [] := by
  cases h with
  | nil => simp
  | last hne => simp [hne]
  | cons => simp [hsep]

theorem Scan.length_le {sep s : List α} {pieces : List (List α)} (h : Scan sep s pieces) :
    ∀ piece ∈ pieces, piece.length ≤ s.length := by
  induction h with
  | nil => simp
  | last => simp
  | cons _ _ ih =>
      simp only [List.mem_cons, forall_eq_or_imp, List.length_append]
      refine ⟨by omega, ?_⟩
      intro piece hmem
      have hle := ih piece hmem
      omega

/-! ## By position -/

/-- The first position from `pos` on where `sep` occurs. -/
def findFrom [DecidableEq α] (s sep : List α) (pos : Nat) : Option Nat :=
  (List.range' pos (s.length + 1 - pos)).find? fun i => sep.isPrefixOf (s.drop i)

section

variable [DecidableEq α] {s sep : List α} {pos : Nat}

theorem findFrom_eq_none (h : ¬sep <:+: s.drop pos) : findFrom s sep pos = none := by
  simp only [findFrom, List.find?_range'_eq_none, Bool.not_eq_true', Bool.eq_false_iff, ne_eq,
    List.isPrefixOf_iff_prefix]
  intro i hi _ hpre
  refine h (infix_of_prefix_drop (i := i - pos) ?_)
  rwa [List.drop_drop, Nat.add_sub_cancel' hi]

theorem findFrom_eq_some {pre rest : List α} (hpos : pos ≤ s.length)
    (hs : s.drop pos = pre ++ sep ++ rest) (h : FirstBehind sep pre rest) :
    findFrom s sep pos = some (pos + pre.length) := by
  have hdrop (i : Nat) : s.drop (pos + i) = (pre ++ sep ++ rest).drop i := by
    rw [← hs, List.drop_drop]
  have hlen := congrArg List.length hs
  simp only [List.length_drop, List.length_append] at hlen
  simp only [findFrom, List.find?_range'_eq_some, List.isPrefixOf_iff_prefix, List.mem_range'_1,
    Bool.not_eq_true', Bool.eq_false_iff, ne_eq]
  refine ⟨?_, ?_, ?_⟩
  · rw [hdrop, List.append_assoc, List.drop_left]
    exact List.prefix_append ..
  · omega
  · intro j hj hlt
    rw [← Nat.add_sub_cancel' hj, hdrop]
    exact h (j - pos) (by omega)

end

/-! ## Joining

The scan by position: what it finds, one occurrence behind the other. Joining the pieces gives back the
list, but for a separator at the end that the scan found.
-/

/-- `i` is the first position from `pos` on where `sep` occurs. -/
structure FirstFrom (s sep : List α) (pos i : Nat) : Prop where
  le : pos ≤ i
  occurs : sep <+: s.drop i
  first : ∀ j, pos ≤ j → j < i → ¬sep <+: s.drop j

/-- The positions that a scan from left to right finds: each occurrence is looked for behind the one
before it, so that no two of them overlap. -/
inductive FoundAt (sep s : List α) : Nat → Prop
  | first {i : Nat} : FirstFrom s sep 0 i → FoundAt sep s i
  | next {i j : Nat} : FoundAt sep s i → FirstFrom s sep (i + sep.length) j → FoundAt sep s j

/-- The list ends in an occurrence that the scan finds. -/
def EndsInFound (sep s : List α) : Prop :=
  ∃ i, FoundAt sep s i ∧ i + sep.length = s.length

section

variable {sep s pre rest : List α} {pos i j : Nat}

theorem FirstFrom.unique (hi : FirstFrom s sep pos i) (hj : FirstFrom s sep pos j) : i = j := by
  rcases Nat.lt_trichotomy i j with hlt | heq | hlt
  · exact absurd hi.occurs (hj.first i hi.le hlt)
  · exact heq
  · exact absurd hj.occurs (hi.first j hj.le hlt)

theorem FirstBehind.firstFrom (h : FirstBehind sep pre rest) :
    FirstFrom (pre ++ sep ++ rest) sep 0 pre.length where
  le := Nat.zero_le _
  occurs := by
    rw [List.append_assoc, List.drop_left]
    exact List.prefix_append ..
  first := by
    intro j _ hlt
    exact h j hlt

/-- Behind a prefix, looking for the separator is looking for it in the rest. -/
theorem firstFrom_append : FirstFrom (pre ++ s) sep (pre.length + pos) (pre.length + i) ↔
    FirstFrom s sep pos i := by
  have hdrop (k : Nat) : (pre ++ s).drop (pre.length + k) = s.drop k := by
    rw [← List.drop_drop, List.drop_left]
  constructor
  · intro h
    refine ⟨Nat.le_of_add_le_add_left h.le, hdrop i ▸ h.occurs, ?_⟩
    intro j hpos hlt hocc
    exact h.first (pre.length + j) (Nat.add_le_add_left hpos _) (Nat.add_lt_add_left hlt _)
      (hdrop j ▸ hocc)
  · intro h
    refine ⟨Nat.add_le_add_left h.le _, hdrop i ▸ h.occurs, ?_⟩
    intro j hpos hlt hocc
    rw [← Nat.add_sub_cancel' (Nat.le_of_add_right_le hpos), hdrop] at hocc
    exact h.first (j - pre.length) (by omega) (by omega) hocc

/-- What is found from behind a prefix on is behind the prefix. -/
theorem FirstFrom.exists_of_append (h : FirstFrom (pre ++ s) sep (pre.length + pos) j) :
    ∃ i, j = pre.length + i ∧ FirstFrom s sep pos i := by
  have hj : j = pre.length + (j - pre.length) :=
    (Nat.add_sub_cancel' (Nat.le_of_add_right_le h.le)).symm
  rw [hj] at h
  exact ⟨_, hj, firstFrom_append.mp h⟩

theorem FoundAt.occurs (h : FoundAt sep s i) : sep <+: s.drop i := by
  cases h with
  | first h => exact h.occurs
  | next _ h => exact h.occurs

/-- The scan finds the first occurrence, and then what it finds in the rest. -/
theorem foundAt_cons (h : FirstBehind sep pre rest) : FoundAt sep (pre ++ sep ++ rest) j ↔
    j = pre.length ∨ ∃ i, j = (pre ++ sep).length + i ∧ FoundAt sep rest i := by
  constructor
  · intro hj
    induction hj with
    | first hj => exact .inl (hj.unique h.firstFrom)
    | next _ hj ih =>
        rcases ih with rfl | ⟨k, rfl, hk⟩
        · rw [← List.length_append, ← Nat.add_zero (pre ++ sep).length] at hj
          rcases hj.exists_of_append with ⟨i, hi, hfirst⟩
          exact .inr ⟨i, hi, .first hfirst⟩
        · rw [Nat.add_assoc] at hj
          rcases hj.exists_of_append with ⟨i, hi, hfirst⟩
          exact .inr ⟨i, hi, .next hk hfirst⟩
  · rintro (rfl | ⟨i, rfl, hi⟩)
    · exact .first h.firstFrom
    · induction hi with
      | first hi =>
          refine .next (.first h.firstFrom) ?_
          rw [← List.length_append]
          exact firstFrom_append.mpr hi
      | next _ hi ih =>
          refine .next ih ?_
          rw [Nat.add_assoc]
          exact firstFrom_append.mpr hi

theorem endsInFound_cons (h : FirstBehind sep pre rest) :
    EndsInFound sep (pre ++ sep ++ rest) ↔ rest = [] ∨ EndsInFound sep rest := by
  unfold EndsInFound
  simp only [foundAt_cons h, List.length_append, ← List.length_eq_zero_iff]
  constructor
  · rintro ⟨j, rfl | ⟨i, rfl, hi⟩, hend⟩
    · exact .inl (by omega)
    · exact .inr ⟨i, hi, by omega⟩
  · rintro (hnil | ⟨i, hi, hend⟩)
    · exact ⟨_, .inl rfl, by omega⟩
    · exact ⟨_, .inr ⟨i, rfl, hi⟩, by omega⟩

theorem endsInFound_of_infix_false (h : ¬sep <:+: s) : ¬EndsInFound sep s := by
  rintro ⟨i, hi, _⟩
  exact h (infix_of_prefix_drop hi.occurs)

/-- What comes before the first occurrence holds none. -/
theorem FirstBehind.infix_false (hsep : sep ≠ []) (h : FirstBehind sep pre rest) :
    ¬sep <:+: pre := by
  rintro ⟨before, after, rfl⟩
  have hpos := List.length_pos_iff.mpr hsep
  refine h before.length ?_ ?_
  · simp only [List.length_append]
    omega
  · simp only [List.append_assoc, List.drop_left]
    exact List.prefix_append ..

end

section

variable {sep s : List α} {pieces : List (List α)}

/-- No piece holds the separator. -/
theorem Scan.infix_false (hsep : sep ≠ []) (h : Scan sep s pieces) :
    ∀ piece ∈ pieces, ¬sep <:+: piece := by
  induction h with
  | nil => simp
  | last _ hin => simpa using hin
  | cons hfirst _ ih =>
      simp only [List.mem_cons, forall_eq_or_imp]
      exact ⟨hfirst.infix_false hsep, ih⟩

theorem Scan.join (hsep : sep ≠ []) (h : Scan sep s pieces) (hend : ¬EndsInFound sep s) :
    sep.intercalate pieces = s := by
  induction h with
  | nil => simp
  | last => simp
  | @cons pre rest pieces hfirst hrest ih =>
      rw [endsInFound_cons hfirst, not_or] at hend
      have hpieces := mt (hrest.eq_nil_iff hsep).mp hend.1
      rw [List.intercalate_cons_of_ne_nil hpieces, ih hend.2]

theorem Scan.join_append (hsep : sep ≠ []) (h : Scan sep s pieces) (hend : EndsInFound sep s) :
    sep.intercalate pieces ++ sep = s := by
  induction h with
  | nil => exact absurd hend (endsInFound_of_infix_false (by simpa using hsep))
  | last _ hin => exact absurd hend (endsInFound_of_infix_false hin)
  | @cons pre rest pieces hfirst hrest ih =>
      by_cases hnil : rest = []
      · have hpieces := (hrest.eq_nil_iff hsep).mpr hnil
        simp [hnil, hpieces]
      · have hpieces := mt (hrest.eq_nil_iff hsep).mp hnil
        have hrec := ih (((endsInFound_cons hfirst).mp hend).resolve_left hnil)
        rw [List.intercalate_cons_of_ne_nil hpieces, List.append_assoc, hrec]

end

/-! ## A separator of one element -/

theorem notMem_of_firstBehind {c : α} {pre rest : List α} (h : FirstBehind [c] pre rest) :
    c ∉ pre := by
  intro hmem
  rcases List.append_of_mem hmem with ⟨before, after, rfl⟩
  refine h before.length (by simp) ⟨after ++ [c] ++ rest, ?_⟩
  simp

theorem notMem_of_infix_false {c : α} {s : List α} (h : ¬[c] <:+: s) : c ∉ s := by
  intro hmem
  rcases List.append_of_mem hmem with ⟨before, after, rfl⟩
  exact h ⟨before, after, by simp⟩

/-- There is a second piece exactly if the element occurs before the end. -/
theorem Scan.two_le_length_iff {c : α} {s : List α} {pieces : List (List α)} (h : Scan [c] s pieces) :
    2 ≤ pieces.length ↔ c ∈ s.dropLast := by
  cases h with
  | nil => simp
  | last _ hin =>
      refine iff_of_false (by simp) ?_
      intro hmem
      exact notMem_of_infix_false hin (List.dropLast_subset _ hmem)
  | @cons pre rest pieces hfirst hrest =>
      by_cases hnil : rest = []
      · have hpieces := (hrest.eq_nil_iff (by simp)).mpr hnil
        simp [hnil, hpieces, notMem_of_firstBehind hfirst]
      · have hpieces := mt (hrest.eq_nil_iff (by simp)).mp hnil
        have hlen := List.length_pos_iff.mpr hpieces
        rw [List.dropLast_append_of_ne_nil hnil]
        refine iff_of_true ?_ (by simp)
        rw [List.length_cons]
        omega

/-- The scan for one element leaves out the last piece of `List.splitOn` if it is empty. -/
theorem Scan.splitOn [DecidableEq α] {c : α} {s : List α} {pieces : List (List α)}
    (h : Scan [c] s pieces) : s.splitOn c = pieces ∨ s.splitOn c = pieces ++ [[]] := by
  induction h with
  | nil => exact .inr rfl
  | last _ hin => exact .inl (List.splitOn_eq_singleton (notMem_of_infix_false hin))
  | @cons pre rest pieces hfirst _ ih =>
      rw [List.append_assoc, List.singleton_append,
        List.splitOn_append_cons_self_of_not_mem (notMem_of_firstBehind hfirst)]
      exact ih.imp (congrArg (pre :: ·)) (congrArg (pre :: ·))

end WebsocketCpp
