import WebsocketCpp.Websocket.Utility

/-!
# Splitting

`strsplit` (`websocket/Utility.cpp:81-95`) appends the pieces of the left-to-right scan, and a separator
that is not empty is found at most as often as there are characters. Joining the pieces undoes it
(`strsplit_splitsBack`).
-/

namespace WebsocketCpp

variable {α : Type} [DecidableEq α]

/-- What comes behind the loop of `strsplit`. -/
def lastPiece (s : List α) (r : Nat × List (List α)) : List (List α) :=
  if r.1 ≠ s.length then r.2 ++ [s.drop r.1] else r.2

theorem strsplit_eq (n : Nat) (s seperator : List α) (v : List (List α)) :
    strsplit n s seperator v =
      (strsplitLoop s seperator n 0 (findFrom s seperator 0) v).map (lastPiece s) := by
  unfold strsplit
  cases strsplitLoop s seperator n 0 (findFrom s seperator 0) v with
  | error e => rfl
  | ok r =>
      show (if r.1 ≠ s.length then _ else _) = Except.ok (lastPiece s r)
      unfold lastPiece
      split <;> rfl

/-- The loop scans what is left from `pos1` on. -/
theorem strsplitLoop_scan {s seperator t : List α} (hsep : seperator ≠ []) {pieces : List (List α)}
    (h : Scan seperator t pieces) {pos1 n : Nat} (hpos : pos1 ≤ s.length) (ht : s.drop pos1 = t)
    (hn : t.length ≤ n) (v : List (List α)) :
    (strsplitLoop s seperator n pos1 (findFrom s seperator pos1) v).map (lastPiece s) =
      .ok (v ++ pieces) := by
  have hsep0 := List.length_pos_iff.mpr hsep
  induction h generalizing pos1 n v with
  | nil =>
      have hend : pos1 = s.length := Nat.le_antisymm hpos (List.drop_eq_nil_iff.mp ht)
      have hnone : findFrom s seperator pos1 = none := by
        apply findFrom_eq_none
        rw [ht, List.infix_nil]
        exact hsep
      rw [hnone, strsplitLoop_none]
      simp [Except.map, lastPiece, hend]
  | last hne hin =>
      have hend : pos1 ≠ s.length := by
        rintro rfl
        rw [List.drop_length] at ht
        exact hne ht.symm
      have hnone : findFrom s seperator pos1 = none := findFrom_eq_none (ht ▸ hin)
      rw [hnone, strsplitLoop_none]
      simp [Except.map, lastPiece, hend, ht]
  | @cons pre rest pieces hfirst _ ih =>
      rw [findFrom_eq_some hpos ht hfirst]
      have hlen := congrArg List.length ht
      simp only [List.length_drop, List.length_append] at hlen hn
      have hdrop : s.drop (pos1 + pre.length + seperator.length) = rest := by
        rw [Nat.add_assoc, ← List.drop_drop, ht, ← List.length_append, List.drop_left]
      cases n with
      | zero => omega
      | succ n =>
          have hpre : (s.drop pos1).take (pos1 + pre.length - pos1) = pre := by
            rw [Nat.add_sub_cancel_left, ht, List.append_assoc, List.take_left]
          rw [strsplitLoop, hpre, ih (by omega) hdrop (by omega)]
          simp

/-- `strsplit` ends after as many iterations as there are characters, with the pieces of the scan. -/
theorem strsplit_scan {s seperator : List α} (hsep : seperator ≠ []) {pieces : List (List α)}
    (h : Scan seperator s pieces) {n : Nat} (hn : s.length ≤ n) (v : List (List α)) :
    strsplit n s seperator v = .ok (v ++ pieces) := by
  rw [strsplit_eq]
  exact strsplitLoop_scan hsep h (Nat.zero_le _) List.drop_zero hn v

/-- Joining the pieces gives back the string, without the separator at the end if the scan finds it
there. -/
structure SplitsBack (seperator s : List α) (pieces : List (List α)) : Prop where
  noSeperator : ∀ piece ∈ pieces, ¬seperator <:+: piece
  join : ¬EndsInFound seperator s → seperator.intercalate pieces = s
  joinEnd : EndsInFound seperator s → seperator.intercalate pieces ++ seperator = s
  empty_iff : pieces = [] ↔ s = []

/-- `strsplit` with a separator that is not empty returns, and its pieces can be joined again. -/
theorem strsplit_splitsBack {s seperator : List α} (hsep : seperator ≠ []) :
    ∃ pieces, (∀ n, s.length ≤ n → strsplit n s seperator [] = .ok pieces) ∧
      SplitsBack seperator s pieces := by
  rcases exists_scan hsep s with ⟨pieces, hscan⟩
  refine ⟨pieces, ?_, ?_⟩
  · intro n hn
    rw [strsplit_scan hsep hscan hn, List.nil_append]
  · exact {
      noSeperator := hscan.infix_false hsep
      join := hscan.join hsep
      joinEnd := hscan.join_append hsep
      empty_iff := hscan.eq_nil_iff hsep }

/-- `"aa"` is found twice in `"aaaaa"`, without overlap, and what is left is the last piece. -/
theorem strsplit_splitsBack_aaaaa :
    strsplit 5 "aaaaa".toList "aa".toList [] = .ok ["".toList, "".toList, "a".toList] ∧
      SplitsBack "aa".toList "aaaaa".toList ["".toList, "".toList, "a".toList] := by
  rcases @strsplit_splitsBack Char _ "aaaaa".toList "aa".toList (by decide) with
    ⟨pieces, hret, hback⟩
  have hpieces : strsplit 5 "aaaaa".toList "aa".toList [] =
      .ok ["".toList, "".toList, "a".toList] := by decide
  rw [hret 5 (by decide)] at hpieces
  cases hpieces
  exact ⟨hret 5 (by decide), hback⟩

end WebsocketCpp
