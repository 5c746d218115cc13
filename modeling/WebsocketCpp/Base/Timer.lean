import Mathlib.Algebra.Group.Nat.Defs
import Mathlib.Data.Prod.Lex
import Mathlib.Data.Int.Order.Basic

/-!
# Timers

`Timestamp` (`base/Timestamp.h`) and `Timer` (`base/Timer.h`, `base/Timer.cpp`). The callback of a
timer is known by the timer's index.
-/

namespace WebsocketCpp

/-- `Timestamp`: microseconds since the epoch. -/
abbrev Timestamp := Int

namespace Timestamp

/-- `Timestamp::csMicrosecondsPerSecond` (`Timestamp.cpp:58`). -/
def csMicrosecondsPerSecond : Int := 1000 * 1000

/-- `Timestamp::valid` (`Timestamp.h:82-85`). -/
def valid (t : Timestamp) : Prop := 0 < t

instance (t : Timestamp) : Decidable t.valid := inferInstanceAs (Decidable (0 < t))

/-- `addSeconds` (`Timestamp.h:116-120`), with the seconds as the microseconds they are cast to. -/
def addSeconds (t : Timestamp) (microsec : Int) : Timestamp := t + microsec

end Timestamp

/-- `UINTPTR_MAX`. -/
def UINTPTR_MAX : Nat := 2 ^ 64 - 1

/-- The members of `Timer` that the queue uses (`Timer.h:40-56`). `compute` says whether a
`TimerAlgorithm` is set, `interval` is `interval_` in microseconds where it is positive. -/
structure Timer where
  index : Nat
  expiration : Timestamp
  brepeat : Bool
  compute : Bool
  interval : Option Nat
  deriving DecidableEq, Repr

/-- What a timer reads when it is restarted: the answer of its algorithm and the time. -/
structure Restart where
  nextTimestamp : Timestamp
  now : Timestamp

/-- `Timer::restartTimer` (`Timer.h:96-107`). -/
def Timer.restartTimer (tm : Timer) (r : Restart) : Timer :=
  if tm.compute then { tm with expiration := r.nextTimestamp }
  else
    match tm.interval with
    | some microsec => { tm with expiration := r.now.addSeconds microsec }
    | none => tm

@[simp] theorem Timer.index_restartTimer (tm : Timer) (r : Restart) :
    (tm.restartTimer r).index = tm.index := by
  unfold restartTimer
  split
  · rfl
  · split <;> rfl

@[simp] theorem Timer.brepeat_restartTimer (tm : Timer) (r : Restart) :
    (tm.restartTimer r).brepeat = tm.brepeat := by
  unfold restartTimer
  split
  · rfl
  · split <;> rfl

@[simp] theorem Timer.compute_restartTimer (tm : Timer) (r : Restart) :
    (tm.restartTimer r).compute = tm.compute := by
  unfold restartTimer
  split
  · rfl
  · split <;> rfl

theorem Timer.restartTimer_of_compute {tm : Timer} (h : tm.compute = true) (r : Restart) :
    (tm.restartTimer r).expiration = r.nextTimestamp := by
  rw [restartTimer, if_pos h]

/-- `TimerQueue::TimerEntity`: `std::pair<Timestamp, Timer*>`. -/
structure TimerEntity where
  first : Timestamp
  second : Nat
  deriving DecidableEq, Repr

namespace TimerEntity

/-- Pairs are compared by their first component first. -/
def key (e : TimerEntity) : Int ×ₗ Nat := toLex (e.first, e.second)

theorem key_injective : Function.Injective key := by
  intro ⟨t, p⟩ ⟨t', p'⟩ h
  have hpair : (t, p) = (t', p') := toLex.injective h
  cases hpair
  rfl

instance : LinearOrder TimerEntity := LinearOrder.lift' key key_injective

theorem lt_iff {e e' : TimerEntity} :
    e < e' ↔ e.first < e'.first ∨ e.first = e'.first ∧ e.second < e'.second :=
  Prod.Lex.toLex_lt_toLex

theorem first_le_of_le {e e' : TimerEntity} (h : e ≤ e') : e.first ≤ e'.first := by
  rcases h.lt_or_eq with hlt | rfl
  · rcases lt_iff.mp hlt with hfirst | ⟨hfirst, -⟩
    · exact le_of_lt hfirst
    · exact le_of_eq hfirst
  · exact le_refl _

/-- The key that `getExpireTimer` looks for is above exactly the entries that are due. -/
theorem lt_expireKey {e : TimerEntity} (h : e.second < UINTPTR_MAX) (tm : Timestamp) :
    e < ⟨tm, UINTPTR_MAX⟩ ↔ e.first ≤ tm := by
  rw [lt_iff]
  constructor
  · rintro (hlt | ⟨heq, -⟩)
    · exact le_of_lt hlt
    · exact le_of_eq heq
  · intro hle
    rcases hle.lt_or_eq with hlt | heq
    · exact .inl hlt
    · exact .inr ⟨heq, h⟩

end TimerEntity

/-- `TimerId` (`TimerQueue.h:49-66`). The constructor takes the index as an `int`. -/
structure TimerId where
  index : Int
  tm : Nat
  deriving DecidableEq, Repr

namespace TimerId

/-- `TimerId::TimerId()`. -/
def null : TimerId := ⟨0, 0⟩

/-- `TimerId::TimerId(int, Timer*)`. -/
def new (index : Nat) (tmer : Nat) : TimerId := ⟨(index : Int).bmod (2 ^ 32), tmer⟩

end TimerId

end WebsocketCpp
