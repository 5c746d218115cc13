import Mathlib.Data.List.Forall2
import Mathlib.Data.List.GetD
import Mathlib.Data.List.Nodup
import Mathlib.Data.List.Pairwise
import WebsocketCpp.Misc.Reassembly

/-!
# Where delivered elements come from

The elements of a stream of fragments are numbered in the order of their arrival, and the
receiver that keeps its buffer is run on the numbers instead (`sources`). A delivery then tells
which elements it is made of (`replay_eq_sources`): it changes exactly when one of them does
(`getElem?_replay_ne_iff`). No element is delivered twice exactly when no last piece finds
delivered elements in the buffer (`pairwise_disjoint_replay_iff`).
-/

namespace WebsocketCpp

namespace Fragment

variable {α β : Type}

/-- A function on the elements of a fragment. -/
def map (g : α → β) : Fragment α → Fragment β
  | whole c => whole (c.map g)
  | first c => first (c.map g)
  | middle c => middle (c.map g)
  | last c => last (c.map g)

/-- The numbers from `n` on in place of the elements of a fragment. -/
def number (n : Nat) : Fragment α → Fragment Nat
  | whole c => whole (List.range' n c.length)
  | first c => first (List.range' n c.length)
  | middle c => middle (List.range' n c.length)
  | last c => last (List.range' n c.length)

/-- The numbers from `n` on in place of the elements of a stream. -/
def numbers : Nat → List (Fragment α) → List (Fragment Nat)
  | _, [] => []
  | n, f :: fs => f.number n :: numbers (n + f.chunk.length) fs

/-- Every last piece finds no element in the buffer that has been delivered; `held` elements are
in the buffer, of which the first `old` have been delivered. -/
def DeliversOnce : Nat → Nat → List (Fragment α) → Prop
  | _, _, [] => True
  | old, held, whole _ :: fs => DeliversOnce old held fs
  | _, _, first c :: fs => DeliversOnce 0 c.length fs
  | old, held, middle c :: fs => DeliversOnce old (held + c.length) fs
  | old, held, last c :: fs =>
    old = 0 ∧ DeliversOnce (held + c.length) (held + c.length) fs

instance decidableDeliversOnce : (old held : Nat) → (fs : List (Fragment α)) →
    Decidable (DeliversOnce old held fs)
  | _, _, [] => isTrue trivial
  | old, held, whole _ :: fs => decidableDeliversOnce old held fs
  | _, _, first c :: fs => decidableDeliversOnce 0 c.length fs
  | old, held, middle c :: fs => decidableDeliversOnce old (held + c.length) fs
  | old, held, last c :: fs =>
    have := decidableDeliversOnce (held + c.length) (held + c.length) fs
    inferInstanceAs (Decidable (old = 0 ∧ _))

/-! ## Functions on the elements -/

theorem keep_map (g : α → β) (acc : List α) (f : Fragment α) :
    (f.map g).keep (acc.map g) = (f.keep acc).map g := by
  cases f <;> simp [map, keep]

theorem emits_map (g : α → β) (acc : List α) (f : Fragment α) :
    (f.map g).emits (acc.map g) = (f.emits acc).map (List.map g) := by
  cases f <;> simp [map, emits]

/-- The receiver does not look at the elements. -/
theorem replay_map (g : α → β) (acc : List α) (fs : List (Fragment α)) :
    replay (acc.map g) (fs.map (map g)) = (replay acc fs).map (List.map g) := by
  induction fs generalizing acc with
  | nil => rfl
  | cons f fs ih =>
      rw [List.map_cons, replay_cons, replay_cons, List.map_append, emits_map, keep_map, ih]

/-! ## Numbers for elements -/

@[simp] theorem chunk_number (n : Nat) (f : Fragment α) :
    (f.number n).chunk = List.range' n f.chunk.length := by
  cases f <;> rfl

theorem flatMap_chunk_numbers (n : Nat) (fs : List (Fragment α)) :
    (numbers n fs).flatMap chunk = List.range' n (fs.flatMap chunk).length := by
  induction fs generalizing n with
  | nil => rfl
  | cons f fs ih =>
      rw [numbers, List.flatMap_cons, List.flatMap_cons, chunk_number, ih, List.length_append,
        List.range'_append_1]

theorem take_numbers (n r : Nat) (fs : List (Fragment α)) :
    (numbers n fs).take r = numbers n (fs.take r) := by
  induction fs generalizing n r with
  | nil => rw [List.take_nil, numbers, List.take_nil]
  | cons f fs ih =>
      cases r with
      | zero => rfl
      | succ r => rw [numbers, List.take_succ_cons, List.take_succ_cons, numbers, ih]

theorem deliversOnce_numbers (n old held : Nat) (fs : List (Fragment α)) :
    DeliversOnce old held (numbers n fs) ↔ DeliversOnce old held fs := by
  induction fs generalizing n old held with
  | nil => exact Iff.rfl
  | cons f fs ih =>
      cases f <;> simp only [numbers, number, DeliversOnce, List.length_range', ih]

/-- Two fragments that differ in nothing but their elements. -/
def Alike : Fragment α → Fragment α → Prop
  | whole c, whole d | first c, first d | middle c, middle d | last c, last d =>
    c.length = d.length
  | _, _ => False

namespace Alike

variable {f g : Fragment α}

theorem length_chunk (h : Alike f g) : f.chunk.length = g.chunk.length := by
  cases f <;> cases g <;> first | exact h | exact h.elim

theorem number_eq (h : Alike f g) (n : Nat) : f.number n = g.number n := by
  cases f <;> cases g <;> first | exact h.elim | rw [number, number, show _ = _ from h]

theorem fits_iff (h : Alike f g) {acc acc' : List α} (hacc : acc.length = acc'.length)
    (cap : Nat) : f.Fits cap acc ↔ g.Fits cap acc' := by
  cases f <;> cases g <;> first | exact h.elim | simp only [Fits, hacc, show _ = _ from h]

theorem length_keep (h : Alike f g) {acc acc' : List α} (hacc : acc.length = acc'.length) :
    (f.keep acc).length = (g.keep acc').length := by
  cases f <;> cases g <;> first
    | exact h.elim
    | simp only [keep, List.length_append, hacc, show _ = _ from h]

end Alike

theorem numbers_of_alike {fs gs : List (Fragment α)} (h : List.Forall₂ Alike fs gs) (n : Nat) :
    numbers n fs = numbers n gs := by
  induction h generalizing n with
  | nil => rfl
  | cons hfg _ ih => rw [numbers, numbers, hfg.number_eq, hfg.length_chunk, ih]

/-- Numbers stand for elements. -/
theorem map_number (f : Fragment α) (pre rest : List α) (d : α) :
    (f.number pre.length).map (fun t => (pre ++ f.chunk ++ rest).getD t d) = f := by
  have hchunk : ∀ c : List α,
      (List.range' pre.length c.length).map (fun t => (pre ++ c ++ rest).getD t d) = c := by
    intro c
    apply List.ext_getElem
    · rw [List.length_map, List.length_range']
    · intro i hi hc
      rw [List.getElem_map, List.getElem_range', Nat.one_mul, List.append_assoc,
        List.getD_append_right _ _ _ _ (Nat.le_add_right ..), Nat.add_sub_cancel_left,
        List.getD_append _ _ _ _ hc, List.getD_eq_getElem _ _ hc]
  cases f <;> simp only [number, map, chunk, hchunk]

theorem map_numbers (fs : List (Fragment α)) (pre : List α) (d : α) :
    (numbers pre.length fs).map (map fun t => (pre ++ fs.flatMap chunk).getD t d) = fs := by
  induction fs generalizing pre with
  | nil => rfl
  | cons f fs ih =>
      rw [numbers, List.map_cons, List.flatMap_cons, ← List.append_assoc, map_number,
        ← List.length_append, ih]

/-- The numbers of the elements that the deliveries are made of. -/
def sources (fs : List (Fragment α)) (r : Nat) : List (List Nat) :=
  replay [] ((numbers 0 fs).take r)

theorem replay_eq_sources (fs : List (Fragment α)) (r : Nat) (d : α) :
    replay [] (fs.take r) = (sources fs r).map (List.map fun t => (fs.flatMap chunk).getD t d) := by
  have hfs := map_numbers fs [] d
  rw [sources, ← replay_map, List.map_take]
  rw [List.length_nil, List.nil_append] at hfs
  rw [hfs]
  rfl

/-- A delivery changes with an element it is made of, and with no other one. -/
theorem getElem?_replay_ne_iff {fs fs' : List (Fragment α)} (hnum : numbers 0 fs' = numbers 0 fs)
    {t : Nat} {b : α} (ht : t < (fs.flatMap chunk).length)
    (hset : fs'.flatMap chunk = (fs.flatMap chunk).set t b) (r k : Nat) :
    (replay [] (fs.take r))[k]? ≠ (replay [] (fs'.take r))[k]? ↔
      (∃ m, (sources fs r)[k]? = some m ∧ t ∈ m) ∧ (fs.flatMap chunk)[t] ≠ b := by
  have hget : ∀ s, (fs'.flatMap chunk).getD s b =
      if s = t then b else (fs.flatMap chunk).getD s b := by
    intro s
    rw [hset, List.getD_eq_getElem?_getD, List.getElem?_set]
    by_cases hs : t = s
    · rw [if_pos hs, if_pos ht, if_pos hs.symm]
      rfl
    · rw [if_neg hs, if_neg (Ne.symm hs), List.getD_eq_getElem?_getD]
  have hsources : sources fs' r = sources fs r := by rw [sources, sources, hnum]
  rw [replay_eq_sources fs r b, replay_eq_sources fs' r b, hsources, List.getElem?_map,
    List.getElem?_map]
  cases hm : (sources fs r)[k]? with
  | none => simp
  | some m =>
      have hiff : m.map (fun s => (fs.flatMap chunk).getD s b) =
          m.map (fun s => (fs'.flatMap chunk).getD s b) ↔
            (t ∈ m → (fs.flatMap chunk)[t] = b) := by
        rw [List.map_inj_left]
        constructor
        · intro h hmem
          have htt := h t hmem
          rw [hget, if_pos rfl, List.getD_eq_getElem _ _ ht] at htt
          exact htt
        · intro h s hs
          rw [hget]
          by_cases hst : s = t
          · rw [if_pos hst, hst, List.getD_eq_getElem _ _ ht]
            exact h (hst ▸ hs)
          · rw [if_neg hst]
      rw [Option.map_some, Option.map_some, Ne, Option.some.injEq, hiff, Classical.not_imp]
      constructor
      · rintro ⟨hmem, hne⟩
        exact ⟨⟨m, rfl, hmem⟩, hne⟩
      · rintro ⟨⟨m', hm', hmem⟩, hne⟩
        cases hm'
        exact ⟨hmem, hne⟩

/-! ## No element is delivered twice -/

/-- What is delivered was in the buffer or has arrived. -/
theorem mem_of_mem_replay {acc m : List α} {fs : List (Fragment α)} (hm : m ∈ replay acc fs)
    {x : α} (hx : x ∈ m) : x ∈ acc ∨ x ∈ fs.flatMap chunk := by
  induction fs generalizing acc with
  | nil => cases hm
  | cons f fs ih =>
      rw [List.flatMap_cons, List.mem_append]
      rw [replay_cons, List.mem_append] at hm
      rcases hm with hm | hm
      · cases f with
        | whole c =>
            rw [List.mem_singleton.mp hm] at hx
            exact .inr (.inl hx)
        | first c | middle c => cases hm
        | last c =>
            rw [List.mem_singleton.mp hm, List.mem_append] at hx
            exact hx.imp_right .inl
      · rcases ih hm with hacc | hfs
        · cases f with
          | whole c => exact .inl hacc
          | first c => exact .inr (.inl hacc)
          | middle c | last c =>
              rcases List.mem_append.mp hacc with hacc | hc
              · exact .inl hacc
              · exact .inr (.inl hc)
        · exact .inr (.inr hfs)

theorem lt_of_mem_sources {fs : List (Fragment α)} {r t : Nat} {m : List Nat}
    (hm : m ∈ sources fs r) (ht : t ∈ m) : t < (fs.flatMap chunk).length := by
  rcases mem_of_mem_replay hm ht with hnil | hmem
  · cases hnil
  · have hle : ((fs.take r).flatMap chunk).length ≤ (fs.flatMap chunk).length := by
      conv_rhs => rw [← List.take_append_drop r fs, List.flatMap_append, List.length_append]
      exact Nat.le_add_right ..
    rw [take_numbers, flatMap_chunk_numbers, List.mem_range'_1] at hmem
    omega

theorem disjoint_take_iff {acc : List α} {old : Nat} (hold : old ≤ acc.length) (c : List α) :
    (acc.take old).Disjoint (acc ++ c) ↔ old = 0 := by
  constructor
  · intro h
    by_contra hne
    have hpos : 0 < acc.length := by omega
    have hmem : acc[0] ∈ acc.take old := by
      rw [List.mem_take_iff_getElem]
      exact ⟨0, by omega, rfl⟩
    exact h hmem (List.mem_append_left _ (List.take_subset _ _ hmem))
  · rintro rfl
    exact List.disjoint_nil_left _

/-- What comes in other places is not delivered by a replay. -/
theorem disjoint_of_mem_replay {acc c : List α} {fs : List (Fragment α)} (hacc : c.Disjoint acc)
    (hfs : c.Disjoint (fs.flatMap chunk)) {m : List α} (hm : m ∈ replay acc fs) : c.Disjoint m := by
  intro x hx hxm
  rcases mem_of_mem_replay hm hxm with hx' | hx'
  · exact hacc hx hx'
  · exact hfs hx hx'

/-- In a stream of different elements, those that have been delivered do not come again and no two
deliveries share one, exactly if no last piece finds a delivered element. -/
theorem disjoint_replay_iff {acc : List α} {old : Nat} (hold : old ≤ acc.length)
    {fs : List (Fragment α)} (hnd : (acc ++ fs.flatMap chunk).Nodup) :
    ((∀ m ∈ replay acc fs, (acc.take old).Disjoint m) ∧ (replay acc fs).Pairwise List.Disjoint) ↔
      DeliversOnce old acc.length fs := by
  induction fs generalizing acc old with
  | nil => simp [DeliversOnce]
  | cons f fs ih =>
      rw [List.flatMap_cons] at hnd
      obtain ⟨hacc, hrest, hdisj⟩ := List.nodup_append'.mp hnd
      obtain ⟨-, hfs, hchunk⟩ := List.nodup_append'.mp hrest
      have hsub : acc.take old ⊆ acc := List.take_subset ..
      -- what has been delivered cannot arrive again
      have hnew : (acc.take old).Disjoint f.chunk := fun x hx hc =>
        hdisj (hsub hx) (List.mem_append_left _ hc)
      have hacc_fs : acc.Disjoint (fs.flatMap chunk) := fun x hx hx' =>
        hdisj hx (List.mem_append_right _ hx')
      cases f with
      | whole c =>
          have hc : ∀ m ∈ replay acc fs, c.Disjoint m := fun m hm =>
            disjoint_of_mem_replay (fun x hx hx' => hdisj hx' (List.mem_append_left _ hx)) hchunk hm
          have hnd' := List.nodup_append'.mpr ⟨hacc, hfs, hacc_fs⟩
          rw [DeliversOnce, ← ih hold hnd']
          change ((∀ m ∈ c :: replay acc fs, _) ∧ (c :: replay acc fs).Pairwise _) ↔ _
          rw [List.forall_mem_cons, List.pairwise_cons]
          exact ⟨fun h => ⟨h.1.2, h.2.2⟩, fun h => ⟨⟨hnew, h.1⟩, hc, h.2⟩⟩
      | first c =>
          have hdrop : ∀ m ∈ replay c fs, (acc.take old).Disjoint m := fun m hm =>
            disjoint_of_mem_replay hnew (fun x hx => hacc_fs (hsub hx)) hm
          have hih := ih (Nat.zero_le c.length) hrest
          rw [DeliversOnce, ← hih]
          exact ⟨fun h => ⟨fun m _ => List.disjoint_nil_left m, h.2⟩, fun h => ⟨hdrop, h.2⟩⟩
      | middle c =>
          have hnd' : ((acc ++ c) ++ fs.flatMap chunk).Nodup := by
            rw [List.append_assoc]
            exact hnd
          have hle : old ≤ (acc ++ c).length := by
            rw [List.length_append]
            omega
          have hih := ih hle hnd'
          rw [List.take_append_of_le_length hold, List.length_append] at hih
          exact hih
      | last c =>
          have hnd' : ((acc ++ c) ++ fs.flatMap chunk).Nodup := by
            rw [List.append_assoc]
            exact hnd
          have hih := ih (Nat.le_refl (acc ++ c).length) hnd'
          rw [List.take_length, List.length_append] at hih
          rw [DeliversOnce, ← hih]
          change ((∀ m ∈ (acc ++ c) :: replay (acc ++ c) fs, _) ∧
            ((acc ++ c) :: replay (acc ++ c) fs).Pairwise _) ↔ _
          rw [List.forall_mem_cons, List.pairwise_cons, disjoint_take_iff hold]
          constructor
          · rintro ⟨⟨hzero, -⟩, hrest⟩
            exact ⟨hzero, hrest⟩
          · rintro ⟨rfl, hrest⟩
            exact ⟨⟨rfl, fun m _ => List.disjoint_nil_left m⟩, hrest⟩

/-- No two deliveries share an element exactly if no last piece finds a delivered one. -/
theorem pairwise_disjoint_sources_iff (fs : List (Fragment α)) (r : Nat) :
    (sources fs r).Pairwise List.Disjoint ↔ DeliversOnce 0 0 (fs.take r) := by
  have hnd : (([] : List Nat) ++ (numbers 0 (fs.take r)).flatMap chunk).Nodup := by
    rw [List.nil_append, flatMap_chunk_numbers]
    exact List.nodup_range'
  rw [sources, take_numbers, ← deliversOnce_numbers 0]
  have hiff := disjoint_replay_iff (Nat.le_refl 0) hnd
  exact ⟨fun h => hiff.mp ⟨fun m _ => List.disjoint_nil_left m, h⟩, fun h => (hiff.mpr h).2⟩

end Fragment

end WebsocketCpp
