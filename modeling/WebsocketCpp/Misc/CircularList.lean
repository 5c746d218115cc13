import Mathlib.Data.List.Basic

/-!
# Circular lists

Positions in a list of `n` elements whose end follows its last and precedes its first element, as in
`std::list` of libstdc++. `n` is the end. A loop that erases what it stands on and steps back stands on
what followed after it has stepped forward again, wherever it was: `succPos_predPos`.
-/

namespace WebsocketCpp

/-- `it++`. -/
def succPos (n i : Nat) : Nat := if i = n then 0 else i + 1

/-- `it--`. -/
def predPos (n i : Nat) : Nat := if i = 0 then n else i - 1

theorem succPos_of_lt {n i : Nat} (h : i < n) : succPos n i = i + 1 := if_neg (Nat.ne_of_lt h)

theorem succPos_predPos {n i : Nat} (h : i ≤ n) : succPos n (predPos n i) = i := by
  rw [predPos]
  by_cases hi : i = 0
  · rw [if_pos hi, succPos, if_pos rfl, hi]
  · rw [if_neg hi, succPos_of_lt (by omega)]
    omega

variable {α : Type} {l : List α} {i : Nat}

theorem length_eraseIdx_add_one (h : i < l.length) : (l.eraseIdx i).length + 1 = l.length := by
  rw [List.length_eraseIdx_of_lt h]
  omega

/-- What precedes an element that is erased stays. -/
theorem take_eraseIdx_self (h : i < l.length) : (l.eraseIdx i).take i = l.take i := by
  rw [List.eraseIdx_eq_take_drop_succ, List.take_left']
  rw [List.length_take]
  omega

/-- What follows it moves up. -/
theorem drop_eraseIdx_self (h : i < l.length) : (l.eraseIdx i).drop i = l.drop (i + 1) := by
  rw [List.eraseIdx_eq_take_drop_succ, List.drop_left']
  rw [List.length_take]
  omega

end WebsocketCpp
