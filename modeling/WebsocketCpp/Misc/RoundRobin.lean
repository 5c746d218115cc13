import Mathlib.Data.Int.CardIntervalMod
import Mathlib.Data.List.Induction

/-!
# Dealing in turn

The elements of a list are given to the holders of another one in turn. What a holder gets is a function
of the list; it grows at its end, and no holder is more than one element ahead of another.
-/

namespace WebsocketCpp

variable {α β : Type} [DecidableEq β]

/-- What `p` gets when the elements of `xs` are dealt to `holders`. -/
def dealtTo (holders : List β) (p : β) (xs : List α) : List α :=
  (xs.zipIdx.filter fun x => holders[x.2 % holders.length]? = some p).map Prod.fst

@[simp] theorem dealtTo_nil (holders : List β) (p : β) : dealtTo holders p ([] : List α) = [] := rfl

theorem dealtTo_concat (holders : List β) (p : β) (xs : List α) (x : α) :
    dealtTo holders p (xs ++ [x]) =
      dealtTo holders p xs ++ if holders[xs.length % holders.length]? = some p then [x] else [] := by
  have hlast : ([x].zipIdx xs.length) = [(x, xs.length)] := rfl
  rw [dealtTo, List.zipIdx_append, List.filter_append, List.map_append, Nat.zero_add, hlast]
  congr 1
  by_cases h : holders[xs.length % holders.length]? = some p <;> simp [h]

/-- The place of the next holder. -/
theorem succ_mod_eq {n : Nat} (hn : 0 < n) (k : Nat) :
    (k + 1) % n = if n ≤ k % n + 1 then 0 else k % n + 1 := by
  have hlt := Nat.mod_lt k hn
  rw [← Nat.mod_add_mod]
  split
  · have hlast : k % n + 1 = n := by omega
    rw [hlast, Nat.mod_self]
  · exact Nat.mod_eq_of_lt (by omega)

/-- A holder gets its part of all elements, and one more if it is among the first of the last round. -/
theorem length_dealtTo {holders : List β} (hnodup : holders.Nodup) {r : Nat} (hr : r < holders.length)
    (xs : List α) : (dealtTo holders holders[r] xs).length =
      xs.length / holders.length + if r < xs.length % holders.length then 1 else 0 := by
  have hpos : 0 < holders.length := Nat.lt_of_le_of_lt (Nat.zero_le r) hr
  have hcount : (dealtTo holders holders[r] xs).length = xs.length.count (· ≡ r [MOD holders.length]) := by
    induction xs using List.reverseRecOn with
    | nil => rfl
    | append_singleton xs x ih =>
        have hiff : holders[xs.length % holders.length]? = some holders[r] ↔
            xs.length ≡ r [MOD holders.length] := by
          rw [List.getElem?_eq_getElem (Nat.mod_lt _ hpos), Option.some_inj, hnodup.getElem_inj_iff,
            Nat.ModEq, Nat.mod_eq_of_lt hr]
        rw [dealtTo_concat, List.length_append, ih, List.length_append, List.length_singleton,
          Nat.count_succ]
        simp only [hiff]
        split <;> rfl
  rw [hcount, Nat.count_modEq_card _ hpos, Nat.mod_eq_of_lt hr]

end WebsocketCpp
