import Mathlib.Order.Lattice
import Mathlib.Data.List.Nodup
import Mathlib.Data.List.TakeWhile

/-!
# Ordered sets

`std::set` over a linear order, as its elements in order. `below` and `atLeast` are the two ranges
that `lower_bound` divides the set into.
-/

namespace WebsocketCpp

/-- A set as the strictly ascending list of its elements. -/
@[ext] structure OrderedSet (α : Type) [LinearOrder α] where
  toList : List α
  sorted : toList.Pairwise (· < ·)

namespace OrderedSet

variable {α : Type} [LinearOrder α]

/-- The position of an element in an ascending list; an element that is there already is kept. -/
def insertSorted (a : α) : List α → List α
  | [] => [a]
  | b :: l => if a < b then a :: b :: l else if b < a then b :: insertSorted a l else b :: l

theorem mem_insertSorted {a x : α} {l : List α} : x ∈ insertSorted a l ↔ x = a ∨ x ∈ l := by
  induction l with
  | nil => simp [insertSorted]
  | cons b l ih =>
      unfold insertSorted
      rcases lt_trichotomy a b with hlt | rfl | hgt
      · rw [if_pos hlt, List.mem_cons]
      · rw [if_neg (lt_irrefl a), if_neg (lt_irrefl a), List.mem_cons, or_self_left]
      · rw [if_neg (lt_asymm hgt), if_pos hgt, List.mem_cons, ih, List.mem_cons]
        exact or_left_comm

theorem pairwise_insertSorted {a : α} {l : List α} (h : l.Pairwise (· < ·)) :
    (insertSorted a l).Pairwise (· < ·) := by
  induction l with
  | nil => exact List.pairwise_singleton _ a
  | cons b l ih =>
      obtain ⟨hb, hl⟩ := List.pairwise_cons.mp h
      unfold insertSorted
      rcases lt_trichotomy a b with hlt | rfl | hgt
      · rw [if_pos hlt]
        exact List.pairwise_cons.mpr
          ⟨List.forall_mem_cons.mpr ⟨hlt, fun x hx => lt_trans hlt (hb x hx)⟩, h⟩
      · rw [if_neg (lt_irrefl a), if_neg (lt_irrefl a)]
        exact h
      · rw [if_neg (lt_asymm hgt), if_pos hgt]
        refine List.pairwise_cons.mpr ⟨?_, ih hl⟩
        intro x hx
        rcases mem_insertSorted.mp hx with rfl | hx
        · exact hgt
        · exact hb x hx

instance : Membership α (OrderedSet α) := ⟨fun s a => a ∈ s.toList⟩

theorem mem_toList {s : OrderedSet α} {a : α} : a ∈ s.toList ↔ a ∈ s := Iff.rfl

instance (s : OrderedSet α) (a : α) : Decidable (a ∈ s) :=
  inferInstanceAs (Decidable (a ∈ s.toList))

def empty : OrderedSet α := ⟨[], .nil⟩

/-- `begin()`, unless it is `end()`. -/
def first? (s : OrderedSet α) : Option α := s.toList.head?

def insert (s : OrderedSet α) (a : α) : OrderedSet α :=
  ⟨insertSorted a s.toList, pairwise_insertSorted s.sorted⟩

def erase (s : OrderedSet α) (a : α) : OrderedSet α :=
  ⟨s.toList.erase a, s.sorted.sublist List.erase_sublist⟩

/-- The elements before `lower_bound(k)`. -/
def below (s : OrderedSet α) (k : α) : List α := s.toList.takeWhile (· < k)

/-- The elements from `lower_bound(k)` on. -/
def atLeast (s : OrderedSet α) (k : α) : OrderedSet α :=
  ⟨s.toList.dropWhile (· < k), s.sorted.sublist (List.dropWhile_sublist _)⟩

theorem nodup (s : OrderedSet α) : s.toList.Nodup := s.sorted.imp ne_of_lt

@[simp] theorem mem_empty {a : α} : a ∉ (empty : OrderedSet α) := List.not_mem_nil

@[simp] theorem mem_insert {s : OrderedSet α} {a x : α} : x ∈ s.insert a ↔ x = a ∨ x ∈ s :=
  mem_insertSorted

@[simp] theorem mem_erase {s : OrderedSet α} {a x : α} : x ∈ s.erase a ↔ x ≠ a ∧ x ∈ s :=
  s.nodup.mem_erase_iff

theorem below_append_atLeast (s : OrderedSet α) (k : α) :
    s.below k ++ (s.atLeast k).toList = s.toList := List.takeWhile_append_dropWhile

theorem nodup_below (s : OrderedSet α) (k : α) : (s.below k).Nodup :=
  (List.takeWhile_sublist _).nodup s.nodup

theorem lt_of_mem_below {s : OrderedSet α} {k x : α} (h : x ∈ s.below k) : x < k :=
  of_decide_eq_true (List.mem_takeWhile_imp (p := fun x => decide (x < k)) h)

theorem not_lt_of_mem_dropWhile {l : List α} (h : l.Pairwise (· < ·)) {k x : α}
    (hx : x ∈ l.dropWhile (· < k)) : ¬x < k := by
  induction l with
  | nil => cases hx
  | cons b l ih =>
      obtain ⟨hb, hl⟩ := List.pairwise_cons.mp h
      rw [List.dropWhile_cons] at hx
      split at hx
      · exact ih hl hx
      · rename_i hbk
        rcases List.mem_cons.mp hx with rfl | hx
        · exact fun hlt => hbk (decide_eq_true hlt)
        · exact fun hlt => hbk (decide_eq_true (lt_trans (hb x hx) hlt))

theorem not_lt_of_mem_atLeast {s : OrderedSet α} {k x : α} (h : x ∈ s.atLeast k) : ¬x < k :=
  not_lt_of_mem_dropWhile s.sorted h

theorem mem_below {s : OrderedSet α} {k x : α} : x ∈ s.below k ↔ x ∈ s ∧ x < k := by
  have hsplit := s.below_append_atLeast k
  constructor
  · intro h
    exact ⟨mem_toList.mp (hsplit ▸ List.mem_append_left _ h), lt_of_mem_below h⟩
  · intro ⟨hx, hlt⟩
    rw [← mem_toList, ← hsplit, List.mem_append] at hx
    exact hx.resolve_right fun h => not_lt_of_mem_atLeast h hlt

theorem mem_atLeast {s : OrderedSet α} {k x : α} : x ∈ s.atLeast k ↔ x ∈ s ∧ ¬x < k := by
  have hsplit := s.below_append_atLeast k
  constructor
  · intro h
    exact ⟨mem_toList.mp (hsplit ▸ List.mem_append_right _ h), not_lt_of_mem_atLeast h⟩
  · intro ⟨hx, hlt⟩
    rw [← mem_toList, ← hsplit, List.mem_append] at hx
    exact hx.resolve_left fun h => hlt (lt_of_mem_below h)

theorem atLeast_eq_self {s : OrderedSet α} {k : α} (h : ∀ x ∈ s, ¬x < k) : s.atLeast k = s := by
  have hnil : s.below k = [] :=
    List.eq_nil_iff_forall_not_mem.mpr fun x hx => h x (mem_below.mp hx).1 (lt_of_mem_below hx)
  have hsplit := s.below_append_atLeast k
  rw [hnil, List.nil_append] at hsplit
  exact OrderedSet.ext hsplit

/-- Nothing precedes the first element. -/
theorem le_of_first? {s : OrderedSet α} {a x : α} (h : s.first? = some a) (hx : x ∈ s) : a ≤ x := by
  obtain ⟨l, sorted⟩ := s
  cases l with
  | nil => cases h
  | cons b l =>
      obtain rfl : b = a := Option.some.inj h
      rcases List.mem_cons.mp hx with rfl | hx
      · exact le_refl _
      · exact le_of_lt ((List.pairwise_cons.mp sorted).1 x hx)

theorem mem_of_first? {s : OrderedSet α} {a : α} (h : s.first? = some a) : a ∈ s :=
  List.mem_of_head? h

theorem first?_eq_none {s : OrderedSet α} : s.first? = none ↔ ∀ x, x ∉ s := by
  rw [first?, List.head?_eq_none_iff, List.eq_nil_iff_forall_not_mem]
  exact Iff.rfl

end OrderedSet

end WebsocketCpp
