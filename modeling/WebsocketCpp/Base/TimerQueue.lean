import Mathlib.Logic.Function.Basic
import WebsocketCpp.Base.Timer
import WebsocketCpp.Fault
import WebsocketCpp.Misc.OrderedSet
import WebsocketCpp.Misc.Run

/-!
# The timer queue

`TimerQueue` (`base/TimerQueue.cpp`). Timers live on a heap of addresses; using the address of a
timer that has been deleted is a fault. What the clock, the allocator and the kernel answer are
arguments.
-/

namespace WebsocketCpp

/-- One moment on the two clocks of the system: `CLOCK_MONOTONIC` and what `Timestamp::now`
reads. -/
structure Clock where
  mono : Int
  wall : Timestamp

/-- How `timerfd_` is set. A relative time is measured on the monotonic clock, also for a timer that
is created with `CLOCK_REALTIME`. -/
inductive Timerfd where
  | disarmed
  | absolute (expires : Timestamp)
  | relative (microsec : Int) (setAt : Clock)

/-- The time at which the timer expires, as the wall clock shows it now. -/
def Timerfd.expires (now : Clock) : Timerfd → Option Timestamp
  | .disarmed => none
  | .absolute expires => some expires
  | .relative microsec setAt => some (now.wall + (setAt.mono + microsec - now.mono))

/-- What the queue does to the timers of its entries: `run()` of the timer at an address, and `delete`. -/
inductive TimerEvent where
  | run (p index : Nat)
  | deleted (index : Nat)
  deriving DecidableEq, Repr

abbrev Timed := Traced TimerEvent ObjectFault

/-- The members of `TimerQueue`, with the heap, `Timer::sIndexNum` and the static variable of
`resetTimerFd`. -/
structure TimerQueue where
  heap : Nat → Option Timer
  sIndexNum : Nat
  bsetup : Bool
  timerfd : Timerfd
  timerLists : OrderedSet TimerEntity

/-- `howMuchTimeFromNow` (`TimerQueue.cpp:36-50`), in microseconds. -/
def howMuchTimeFromNow (whenTm : Timestamp) (clock : Clock) : Int := max 100 (whenTm - clock.wall)

namespace TimerQueue

/-- The timer at an address. -/
def timer (q : TimerQueue) (p : Nat) : Timed Timer :=
  match q.heap p with
  | some tm => pure tm
  | none => Traced.fail .useAfterFree

def setTimer (q : TimerQueue) (p : Nat) (tm : Option Timer) : TimerQueue :=
  { q with heap := Function.update q.heap p tm }

/-- `new Timer(..)` (`Timer.h:28-36`), with the address the allocator picks. -/
def newTimer (q : TimerQueue) (p : Nat) (expiration : Timestamp) (brepeat compute : Bool)
    (interval : Option Nat) : TimerQueue :=
  { q.setTimer p (some ⟨q.sIndexNum, expiration, brepeat, compute, interval⟩) with
    sIndexNum := q.sIndexNum + 1 }

/-- `resetTimerFd` (`TimerQueue.cpp:68-101`), for a valid time. The first call of the process sets
an absolute time in seconds, for which 0 means to disarm. -/
def resetTimerFd (q : TimerQueue) (tm : Timestamp) (clock : Clock) : TimerQueue :=
  if q.bsetup = false then
    let seconds := tm.tdiv Timestamp.csMicrosecondsPerSecond
    { q with
      timerfd :=
        if seconds = 0 then .disarmed else .absolute (seconds * Timestamp.csMicrosecondsPerSecond)
      bsetup := true }
  else { q with timerfd := .relative (howMuchTimeFromNow tm clock) clock }

/-- `readTimerfd` (`TimerQueue.cpp:53-61`). `expired` is whether the kernel answers with a number of
expirations. -/
def readTimerfd (q : TimerQueue) (expired : Bool) : TimerQueue :=
  if expired then { q with timerfd := .disarmed } else q

/-- `TimerQueue::insert` (`TimerQueue.cpp:227-251`). It deletes a timer whose time is not valid, for which
there is no entry. -/
def insert (q : TimerQueue) (tmer : Nat) : Timed (TimerQueue × Bool) := do
  let newtm := (← q.timer tmer).expiration
  if ¬newtm.valid then
    pure (q.setTimer tmer none, false)
  else
    let bnextExpireChanged :=
      match q.timerLists.first? with
      | none => true
      | some it => decide (newtm < it.first)
    pure ({ q with timerLists := q.timerLists.insert ⟨newtm, tmer⟩ }, bnextExpireChanged)

/-- `TimerQueue::addTimer(Timer*)` (`TimerQueue.cpp:168-180`). -/
def addTimer (q : TimerQueue) (tm : Nat) (clock : Clock) : Timed (TimerQueue × TimerId) := do
  Traced.require (tm ≠ 0) .assertion
  let (q, bupdateNextTimestamp) ← q.insert tm
  let tms := (← q.timer tm).expiration
  let q := if bupdateNextTimestamp then q.resetTimerFd tms clock else q
  pure (q, .new (← q.timer tm).index tm)

/-- `TimerQueue::addTimer(Timestamp&, ..)` (`TimerQueue.cpp:150-160`). -/
def addTimerAt (q : TimerQueue) (tmer : Nat) (time : Timestamp) (interval : Option Nat)
    (brepeat : Bool) (clock : Clock) : Timed (TimerQueue × TimerId) := do
  let q := q.newTimer tmer time brepeat false interval
  let (q, bupdateNextTimestamp) ← q.insert tmer
  let q := if bupdateNextTimestamp then q.resetTimerFd time clock else q
  pure (q, .new (← q.timer tmer).index tmer)

/-- `TimerQueue::getExpireTimer` (`TimerQueue.cpp:258-271`). -/
def getExpireTimer (q : TimerQueue) (tm : Timestamp) : TimerQueue × List TimerEntity :=
  let curTimer : TimerEntity := ⟨tm, UINTPTR_MAX⟩
  if (q.timerLists.atLeast curTimer).first? = none then (q, [])
  else ({ q with timerLists := q.timerLists.atLeast curTimer }, q.timerLists.below curTimer)

/-- The loop that runs the callbacks (`TimerQueue.cpp:206-213`). -/
def runAll (q : TimerQueue) : List TimerEntity → Timed Unit
  | [] => pure ()
  | it :: vec => do
    if it.second ≠ 0 then Traced.emit (.run it.second (← q.timer it.second).index)
    q.runAll vec

/-- One round of the loop of `resetExpired`. -/
def restart (restarts : Nat → Restart) (q : TimerQueue) (it : TimerEntity) : Timed TimerQueue := do
  let tm ← q.timer it.second
  if tm.brepeat then
    let q := q.setTimer it.second (some (tm.restartTimer (restarts it.second)))
    pure (← q.insert it.second).1
  else pure q

/-- `TimerQueue::resetExpired` (`TimerQueue.cpp:278-306`). A one-shot timer is kept on the heap. -/
def resetExpired (q : TimerQueue) (expire : List TimerEntity) (restarts : Nat → Restart)
    (clock : Clock) : Timed TimerQueue := do
  let q ← expire.foldlM (restart restarts) q
  match q.timerLists.first? with
  | none => pure q
  | some it => do
    let nextExpire := (← q.timer it.second).expiration
    if nextExpire.valid then pure (q.resetTimerFd nextExpire clock) else pure q

/-- `TimerQueue::eventRead` (`TimerQueue.cpp:187-219`). The first log line follows `begin()`. -/
def eventRead (q : TimerQueue) (evtime : Timestamp) (expired : Bool) (restarts : Nat → Restart)
    (clock : Clock) : Timed TimerQueue := do
  Traced.require (q.timerLists.first? ≠ none) .pastEnd
  let (q, vec) := (q.readTimerfd expired).getExpireTimer evtime
  if vec = [] then pure q
  else
    q.runAll vec
    q.resetExpired vec restarts clock

/-- `TimerQueue::delTimerInLoop` (`TimerQueue.cpp:325-352`). -/
def delTimerInLoop (q : TimerQueue) (id : TimerId) (clock : Clock) : Timed TimerQueue :=
  match q.timerLists.toList.find? (·.second = id.tm) with
  | none => pure q
  | some it => do
    Traced.emit (.deleted (← q.timer it.second).index)
    let q := { q.setTimer it.second none with timerLists := q.timerLists.erase it }
    match q.timerLists.first? with
    | none => pure q
    | some it => pure (q.resetTimerFd it.first clock)

/-- 365 days. -/
def csMaxTimer : Int := 24 * 3600 * 365 * Timestamp.csMicrosecondsPerSecond

/-- `TimerQueue::TimerQueue` at the time `t0` (`TimerQueue.cpp:111-126`): the longest timer stands at
the end, so that the queue is never empty. -/
def new (sIndexNum : Nat) (bsetup : Bool) (sentinel : Nat) (t0 : Timestamp) (clock : Clock) :
    Timed TimerQueue := do
  let q : TimerQueue := ⟨fun _ => none, sIndexNum, bsetup, .disarmed, .empty⟩
  pure (← q.addTimerAt sentinel (t0.addSeconds csMaxTimer) none false clock).1

/-- The loop of `~TimerQueue`. -/
def deleteAll (q : TimerQueue) : List TimerEntity → Timed TimerQueue
  | [] => pure q
  | it :: rest => do
    Traced.emit (.deleted (← q.timer it.second).index)
    (q.setTimer it.second none).deleteAll rest

/-- `TimerQueue::~TimerQueue` (`TimerQueue.cpp:128-140`). -/
def destruct (q : TimerQueue) : Timed TimerQueue := do
  let q ← { q with timerfd := .disarmed }.deleteAll q.timerLists.toList
  pure { q with timerLists := .empty }

end TimerQueue

/-! ## Programs that use a queue -/

/-- The queue, the timers that have been constructed and not been added yet, and the ids that
`addTimer` has returned, each with the index of its timer. -/
structure TimerUse where
  queue : TimerQueue
  pending : List Nat
  issued : List (TimerId × Nat)

inductive TimerStep where
  | newTimer (p : Nat) (expiration : Timestamp) (brepeat compute : Bool) (interval : Option Nat)
  | addTimer (p : Nat) (clock : Clock)
  | addTimerAt (p : Nat) (time : Timestamp) (interval : Option Nat) (brepeat : Bool) (clock : Clock)
  | delTimerInLoop (id : TimerId) (clock : Clock)
  | eventRead (evtime : Timestamp) (expired : Bool) (restarts : Nat → Restart) (clock : Clock)

namespace TimerUse

/-- What is known of a timer that has been added. -/
def added (u : TimerUse) (p : Nat) (added : TimerQueue × TimerId) : Timed TimerUse := do
  let tm ← added.1.timer p
  pure ⟨added.1, u.pending.erase p, (added.2, tm.index) :: u.issued⟩

def step (u : TimerUse) : TimerStep → Timed TimerUse
  | .newTimer p expiration brepeat compute interval =>
    pure { u with
      queue := u.queue.newTimer p expiration brepeat compute interval
      pending := p :: u.pending }
  | .addTimer p clock => u.queue.addTimer p clock >>= u.added p
  | .addTimerAt p time interval brepeat clock =>
    u.queue.addTimerAt p time interval brepeat clock >>= u.added p
  | .delTimerInLoop id clock => do
    pure { u with queue := ← u.queue.delTimerInLoop id clock }
  | .eventRead evtime expired restarts clock => do
    pure { u with queue := ← u.queue.eventRead evtime expired restarts clock }

/-- The address is free, and one the allocator can return. -/
def Free (u : TimerUse) (p : Nat) : Prop := 0 < p ∧ p < UINTPTR_MAX ∧ u.queue.heap p = none

/-- The id has been returned by `addTimer`, or stands for none. -/
def Known (u : TimerUse) (id : TimerId) : Prop := id = .null ∨ ∃ index, (id, index) ∈ u.issued

/-- The timer is on the heap, with a valid time, and not in the queue. -/
def CanAdd (u : TimerUse) (p : Nat) : Prop :=
  (∀ e ∈ u.queue.timerLists, e.second ≠ p) ∧
    ∃ tm, u.queue.heap p = some tm ∧ tm.expiration.valid

/-- How the queue may be used: timers are constructed at free addresses, a timer that is added has a
valid time and is not in the queue, and a timer is cancelled by its id. -/
def Allowed (u : TimerUse) : TimerStep → Prop
  | .newTimer p _ _ _ _ => u.Free p
  | .addTimer p _ => u.CanAdd p
  | .addTimerAt p time _ _ _ => u.Free p ∧ time.valid
  | .delTimerInLoop id _ => u.Known id
  | .eventRead _ _ _ _ => True

end TimerUse

end WebsocketCpp
