import WebsocketCpp.Fault
import WebsocketCpp.Misc.Split

/-!
# Utilities

`strsplit` (`websocket/Utility.cpp:81-95`), over characters of any type.
-/

namespace WebsocketCpp

variable {α : Type} [DecidableEq α]

/-- The loop of `strsplit`, for at most `n` iterations, with `pos1` and the vector where it ends. `none`
is `std::string::npos`. -/
def strsplitLoop (s seperator : List α) :
    Nat → Nat → Option Nat → List (List α) → Except Fault (Nat × List (List α))
  | _, pos1, none, v => .ok (pos1, v)
  | 0, _, some _, _ => .error .running
  | n + 1, pos1, some pos2, v =>
    strsplitLoop s seperator n (pos2 + seperator.length)
      (findFrom s seperator (pos2 + seperator.length)) (v ++ [(s.drop pos1).take (pos2 - pos1)])

@[simp] theorem strsplitLoop_none (s seperator : List α) (n pos1 : Nat) (v : List (List α)) :
    strsplitLoop s seperator n pos1 none v = .ok (pos1, v) := by
  cases n <;> rfl

/-- `ws::strsplit` (`Utility.cpp:81-95`). `substr` is not asked for a position behind the end: what was
found ends in `s`. -/
def strsplit (n : Nat) (s seperator : List α) (v : List (List α)) : Except Fault (List (List α)) := do
  let (pos1, v) ← strsplitLoop s seperator n 0 (findFrom s seperator 0) v
  if pos1 ≠ s.length then pure (v ++ [s.drop pos1]) else pure v

end WebsocketCpp
