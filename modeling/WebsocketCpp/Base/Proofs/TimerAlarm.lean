import Mathlib.Order.MinMax
import WebsocketCpp.Base.Proofs.TimerRuns

/-!
# How `timerfd_` is set

`neverDeaf`: after each operation `timerfd_` is set to the first entry or earlier. Two things break
it. An event that finds nothing to take out leaves `timerfd_` as reading it left it, that is
disarmed; and when the wall clock is put forward, the relative time that `timerfd_` holds comes too
late until some operation sets it again.
-/

namespace WebsocketCpp

/-- The clock at an operation of the queue. -/
def TimerStep.clock? : TimerStep → Option Clock
  | .newTimer _ _ _ _ _ => none
  | .addTimer _ clock | .addTimerAt _ _ _ _ clock | .delTimerInLoop _ clock
  | .eventRead _ _ _ clock => some clock

namespace Timerfd

/-- The monotonic clock has not gone back since the timer was set. -/
def NotBefore (now : Clock) : Timerfd → Prop
  | .relative _ setAt => setAt.mono ≤ now.mono
  | _ => True

/-- The wall clock has not been put forward since the timer was set, or it expires within 100
microseconds. -/
def InTime (now : Clock) : Timerfd → Prop
  | .relative microsec setAt =>
    now.wall - now.mono ≤ setAt.wall - setAt.mono ∨ setAt.mono + microsec ≤ now.mono + 100
  | _ => True

/-- The timer was set to a time, which may have been past, or to an earlier one. -/
def SetFor (t : Timestamp) : Timerfd → Prop
  | .disarmed => False
  | .absolute expires => expires ≤ t
  | .relative microsec setAt => microsec ≤ 100 ∨ setAt.wall + microsec ≤ t

theorem SetFor.mono {t t' : Timestamp} {fd : Timerfd} (h : fd.SetFor t) (hle : t ≤ t') :
    fd.SetFor t' := by
  cases fd with
  | disarmed => exact h
  | absolute expires => exact le_trans h hle
  | relative microsec setAt => exact h.imp_right fun h => le_trans h hle

/-- A timer that was set for a time expires at it or earlier, as far as the clocks allow. -/
theorem SetFor.expires {t : Timestamp} {fd : Timerfd} (h : fd.SetFor t) {now : Clock}
    (hmono : fd.NotBefore now) (htime : fd.InTime now) :
    ∃ expires, fd.expires now = some expires ∧ expires ≤ max t (now.wall + 100) := by
  cases fd with
  | disarmed => exact absurd h id
  | absolute expires => exact ⟨expires, rfl, le_max_iff.mpr (.inl h)⟩
  | relative microsec setAt =>
      refine ⟨_, rfl, ?_⟩
      rw [le_max_iff]
      simp only [SetFor, NotBefore, InTime, Timestamp] at h hmono htime ⊢
      rcases htime with hwall | hsoon
      · rcases h with hshort | hset
        · right
          omega
        · left
          omega
      · right
        omega

end Timerfd

namespace TimerQueue

/-- If the queue is not empty, `timerfd_` expires no later than the first entry and 100 microseconds
from now, whichever is later. -/
def Armed (q : TimerQueue) (now : Clock) : Prop :=
  ∀ e, q.timerLists.first? = some e →
    ∃ expires, q.timerfd.expires now = some expires ∧ expires ≤ max e.first (now.wall + 100)

/-- `timerfd_` has been set for all entries. The static variable is set since the constructor. -/
structure Alarm (q : TimerQueue) : Prop where
  bsetup : q.bsetup = true
  setFor : ∀ e ∈ q.timerLists, q.timerfd.SetFor e.first

theorem timerfd_resetTimerFd {q : TimerQueue} (h : q.bsetup = true) (tm : Timestamp)
    (clock : Clock) :
    (q.resetTimerFd tm clock).timerfd = .relative (howMuchTimeFromNow tm clock) clock := by
  rw [resetTimerFd, if_neg (by simp [h])]

/-- The first call of the process. -/
theorem timerfd_resetTimerFd_first {q : TimerQueue} (h : q.bsetup = false) {t : Timestamp}
    (hlarge : Timestamp.csMicrosecondsPerSecond ≤ t) (clock : Clock) :
    (q.resetTimerFd t clock).timerfd = .absolute (t.tdiv Timestamp.csMicrosecondsPerSecond *
      Timestamp.csMicrosecondsPerSecond) ∧
      t.tdiv Timestamp.csMicrosecondsPerSecond * Timestamp.csMicrosecondsPerSecond ≤ t := by
  have hpos : (0 : Int) < Timestamp.csMicrosecondsPerSecond := by decide
  have hdiv : t.tdiv Timestamp.csMicrosecondsPerSecond = t / Timestamp.csMicrosecondsPerSecond :=
    Int.tdiv_eq_ediv_of_nonneg (le_trans (le_of_lt hpos) hlarge)
  have hone : 1 ≤ t / Timestamp.csMicrosecondsPerSecond :=
    (Int.le_ediv_iff_mul_le hpos).mpr (by rwa [Int.one_mul])
  rw [resetTimerFd, if_pos h, hdiv]
  exact ⟨if_neg (ne_of_gt (Int.lt_of_lt_of_le Int.zero_lt_one hone)), Int.ediv_mul_le _ (ne_of_gt hpos)⟩

theorem bsetup_resetTimerFd (q : TimerQueue) (tm : Timestamp) (clock : Clock) :
    (q.resetTimerFd tm clock).bsetup = true := by
  unfold resetTimerFd
  split
  · rfl
  · rename_i h
    simpa using h

theorem setFor_howMuchTimeFromNow (tm : Timestamp) (clock : Clock) :
    (Timerfd.relative (howMuchTimeFromNow tm clock) clock).SetFor tm := by
  rw [Timerfd.SetFor, howMuchTimeFromNow]
  rcases le_total (tm - clock.wall) 100 with hsoon | hlater
  · exact .inl (le_of_eq (max_eq_left hsoon))
  · rw [max_eq_right hlater]
    simp only [Timestamp]
    right
    omega

/-- A time before all entries. -/
theorem alarm_resetTimerFd {q : TimerQueue} (h : q.bsetup = true) {tm : Timestamp}
    (hfirst : ∀ e ∈ q.timerLists, tm ≤ e.first) (clock : Clock) :
    (q.resetTimerFd tm clock).Alarm where
  bsetup := bsetup_resetTimerFd q tm clock
  setFor e he := by
    rw [timerLists_resetTimerFd] at he
    rw [timerfd_resetTimerFd h]
    exact (setFor_howMuchTimeFromNow tm clock).mono (hfirst e he)

theorem alarm_rearm {q : TimerQueue} (h : q.bsetup = true) (clock : Clock) :
    (q.rearm clock).Alarm := by
  rw [rearm]
  split
  · rename_i hnone
    exact ⟨h, fun e he => absurd he (OrderedSet.first?_eq_none.mp hnone e)⟩
  · rename_i it hit
    exact alarm_resetTimerFd h
      (fun e he => TimerEntity.first_le_of_le (OrderedSet.le_of_first? hit he)) clock

/-- What is set now is set in time. -/
theorem Alarm.armed {q : TimerQueue} (h : q.Alarm) {now : Clock} (hmono : q.timerfd.NotBefore now)
    (htime : q.timerfd.InTime now) : q.Armed now :=
  fun e he => (h.setFor e (OrderedSet.mem_of_first? he)).expires hmono htime

theorem armed_resetTimerFd {q : TimerQueue} (h : q.bsetup = true) {tm : Timestamp}
    (hfirst : ∀ e ∈ q.timerLists, tm ≤ e.first) (clock : Clock) :
    (q.resetTimerFd tm clock).Armed clock := by
  refine (alarm_resetTimerFd h hfirst clock).armed ?_ ?_ <;> rw [timerfd_resetTimerFd h]
  · exact le_refl _
  · exact .inl (le_refl _)

theorem armed_rearm {q : TimerQueue} (h : q.bsetup = true) (clock : Clock) :
    (q.rearm clock).Armed clock := by
  rw [rearm]
  split
  · rename_i hnone
    intro e he
    rw [hnone] at he
    cases he
  · rename_i it hit
    exact armed_resetTimerFd h
      (fun e he => TimerEntity.first_le_of_le (OrderedSet.le_of_first? hit he)) clock

end TimerQueue

namespace TimerUse

/-- The step sets `timerfd_` again. -/
def Rearms (u : TimerUse) : TimerStep → Prop
  | .newTimer _ _ _ _ _ => False
  | .addTimer p _ => ∃ tm, u.queue.heap p = some tm ∧ ∀ e ∈ u.queue.timerLists, tm.expiration < e.first
  | .addTimerAt _ time _ _ _ => ∀ e ∈ u.queue.timerLists, time < e.first
  | .delTimerInLoop id _ => ∃ e ∈ u.queue.timerLists, e.second = id.tm
  | .eventRead evtime _ _ _ => u.queue.SomeExpire evtime

/-- The step reads an expiration of `timerfd_`, which disarms it. -/
def ReadsExpiration : TimerStep → Prop
  | .eventRead _ expired _ _ => expired = true
  | _ => False

/-- The monotonic clock goes on. -/
def Ticks (u : TimerUse) (a : TimerStep) : Prop :=
  ∀ clock ∈ a.clock?, u.queue.timerfd.NotBefore clock

/-- A step that does not set `timerfd_` again finds it set, in time, and leaves it so. -/
def StaysArmed (u : TimerUse) (a : TimerStep) : Prop :=
  u.Rearms a ∨ ¬ReadsExpiration a ∧ ∀ clock ∈ a.clock?, u.queue.timerfd.InTime clock

end TimerUse

/-- A queue that is used as it should be, on clocks that go on. -/
def alarmMachine : Machine TimerUse TimerStep TimerEvent ObjectFault where
  step := TimerUse.step
  Allowed u a := u.Allowed a ∧ u.Ticks a

/-- After each operation of the run `timerfd_` is set. -/
def NeverDeaf (u : TimerUse) (steps : List TimerStep) : Prop :=
  ∀ before a, before ++ [a] <+: steps → ∀ clock ∈ a.clock?, ∀ u',
    (alarmMachine.run u (before ++ [a])).result = .ok u' → u'.queue.Armed clock

namespace TimerUse

variable {u u' : TimerUse} {a : TimerStep} {out : List TimerEvent}

theorem alarm_addTimer (h : u.queue.Alarm) {p : Nat} {clock : Clock}
    (hmoves : u.Moves (.addTimer p clock) out u') :
    u'.queue.Alarm ∧
      (u.Rearms (.addTimer p clock) → u'.queue.Armed clock) ∧
      (¬u.Rearms (.addTimer p clock) → u'.queue.timerfd = u.queue.timerfd) := by
  cases hmoves with
  | @addTimer _ _ _ tm q htm hvalid hout hq =>
      have hrearms : u.Rearms (.addTimer p clock) ↔
          ∀ e ∈ u.queue.timerLists, tm.expiration < e.first := by
        constructor
        · rintro ⟨tm', htm', hall⟩
          rw [htm] at htm'
          obtain rfl := Option.some.inj htm'
          exact hall
        · exact fun hall => ⟨tm, htm, hall⟩
      rcases hq with ⟨rfl, hnot⟩ | ⟨rfl, hall⟩
      · refine ⟨⟨h.bsetup, ?_⟩, fun hre => absurd (hrearms.mp hre) hnot, fun _ => rfl⟩
        intro e he
        rcases OrderedSet.mem_insert.mp he with rfl | he
        · -- some entry comes before the new one
          obtain ⟨e', hnot⟩ := not_forall.mp hnot
          obtain ⟨he', hlt⟩ := not_forall.mp hnot
          exact (h.setFor e' he').mono (not_lt.mp hlt)
        · exact h.setFor e he
      · have hfirst : ∀ e ∈ (u.queue.withEntry ⟨tm.expiration, p⟩).timerLists,
            tm.expiration ≤ e.first := by
          intro e he
          rcases OrderedSet.mem_insert.mp he with rfl | he
          · exact le_refl _
          · exact le_of_lt (hall e he)
        have hsetup : (u.queue.withEntry ⟨tm.expiration, p⟩).bsetup = true := h.bsetup
        exact ⟨TimerQueue.alarm_resetTimerFd hsetup hfirst clock,
          fun _ => TimerQueue.armed_resetTimerFd hsetup hfirst clock,
          fun hre => absurd (hrearms.mpr hall) hre⟩

/-- Either way of `addTimer`. -/
theorem armed_or_same {clock : Clock} (harmed : u.Rearms a → u'.queue.Armed clock)
    (hsame : ¬u.Rearms a → u'.queue.timerfd = u.queue.timerfd) :
    u'.queue.Armed clock ∨ ¬u.Rearms a ∧ u'.queue.timerfd = u.queue.timerfd := by
  by_cases hre : u.Rearms a
  · exact .inl (harmed hre)
  · exact .inr ⟨hre, hsame hre⟩

/-- A step has one clock. -/
theorem forall_clock {P : Clock → Prop} {clock : Clock} (hclock : a.clock? = some clock) (h : P clock) :
    ∀ clk ∈ a.clock?, P clk := by
  intro clk hclk
  obtain rfl := Option.some.inj (hclock.symm.trans hclk)
  exact h

/-- A step sets `timerfd_` again, or leaves it alone but for reading it. -/
theorem alarm_moves (h : u.queue.Alarm) (hstays : u.StaysArmed a)
    (hmoves : u.Moves a out u') :
    u'.queue.Alarm ∧ ∀ clock ∈ a.clock?,
      u'.queue.Armed clock ∨ ¬u.Rearms a ∧ u'.queue.timerfd = u.queue.timerfd := by
  cases hmoves with
  | newTimer => exact ⟨⟨h.bsetup, h.setFor⟩, by simp [TimerStep.clock?]⟩
  | @addTimer _ p clock tm q htm hvalid hout hq =>
      obtain ⟨halarm, harmed, hsame⟩ := alarm_addTimer h (.addTimer htm hvalid hout hq)
      exact ⟨halarm, forall_clock rfl (armed_or_same harmed hsame)⟩
  | @addTimerAt _ _ p time interval brepeat clock hfree hvalid hadd =>
      have hmid : (u.constructed p time brepeat false interval).queue.Alarm := ⟨h.bsetup, h.setFor⟩
      obtain ⟨halarm, harmed, hsame⟩ := alarm_addTimer hmid hadd
      have hrearms : (u.constructed p time brepeat false interval).Rearms (.addTimer p clock) ↔
          u.Rearms (.addTimerAt p time interval brepeat clock) := by
        constructor
        · rintro ⟨tm, htm, hall⟩
          obtain rfl := Option.some.inj ((TimerQueue.heap_setTimer_self u.queue p _).symm.trans htm)
          exact hall
        · exact fun hall => ⟨_, TimerQueue.heap_setTimer_self u.queue p _, hall⟩
      rw [hrearms] at harmed hsame
      exact ⟨halarm, forall_clock rfl (armed_or_same harmed hsame)⟩
  | @delNothing _ id clock hid hout =>
      have hre : ¬u.Rearms (.delTimerInLoop id clock) := by
        rintro ⟨e, he, heq⟩
        exact hout e he heq
      exact ⟨h, forall_clock rfl (.inr ⟨hre, rfl⟩)⟩
  | @delTimer _ id clock e tm hid he heq htm =>
      have hsetup : TimerQueue.bsetup { u.queue.setTimer e.second none with
          timerLists := u.queue.timerLists.erase e } = true := h.bsetup
      exact ⟨TimerQueue.alarm_rearm hsetup clock,
        forall_clock rfl (.inl (TimerQueue.armed_rearm hsetup clock))⟩
  | @eventIdle _ evtime expired restarts clock hidle =>
      have hread : expired = false := by
        rcases hstays with hre | ⟨hread, -⟩
        · exact absurd hre hidle
        · simpa [ReadsExpiration] using hread
      subst hread
      exact ⟨h, forall_clock rfl (.inr ⟨hidle, rfl⟩)⟩
  | @eventFires _ evtime expired restarts clock q hsome hq hgood' =>
      have hsetup : q.bsetup = true := by
        rw [hq.bsetup_eq, TimerQueue.withoutDue]
        unfold TimerQueue.readTimerfd
        split <;> exact h.bsetup
      exact ⟨TimerQueue.alarm_rearm hsetup clock,
        forall_clock rfl (.inl (TimerQueue.armed_rearm hsetup clock))⟩

/-- After a step `timerfd_` is set. -/
theorem armed_moves (h : u.queue.Alarm) (hticks : u.Ticks a)
    (hstays : u.StaysArmed a) (hmoves : u.Moves a out u') {clock : Clock} (hclock : clock ∈ a.clock?) :
    u'.queue.Armed clock := by
  obtain ⟨halarm, hcases⟩ := alarm_moves h hstays hmoves
  rcases hcases clock hclock with harmed | ⟨hre, hsame⟩
  · exact harmed
  · obtain ⟨-, htime⟩ := hstays.resolve_left hre
    exact halarm.armed (hsame ▸ hticks clock hclock) (hsame ▸ htime clock hclock)

theorem alarm_invariant :
    (alarmMachine.restrict StaysArmed).Invariant fun u => u.Good ∧ u.queue.Alarm := by
  intro u a u' ⟨hgood, halarm⟩ ⟨⟨ha, hticks⟩, hstays⟩ hok
  obtain ⟨out, -, hmoves⟩ := moves_of_result hgood ha hok
  exact ⟨hgood.moves hmoves, (alarm_moves halarm hstays hmoves).1⟩

/-- The run lemma, from any state in which `timerfd_` has been set. -/
theorem neverDeaf_of_alarm (hgood : u.Good) (halarm : u.queue.Alarm) {steps : List TimerStep}
    (hlegal : (alarmMachine.restrict StaysArmed).Legal u steps) : NeverDeaf u steps := by
  intro before a hprefix clock hclock u₂ hrun
  obtain ⟨u₁, hu₁, hstep⟩ := Machine.result_append hrun
  rw [Machine.run_singleton] at hstep
  obtain ⟨hfirst, ⟨ha, hticks⟩, hstays⟩ := Machine.allowed_of_isPrefix hlegal hprefix hu₁
  obtain ⟨hgood₁, halarm₁⟩ := alarm_invariant.run ⟨hgood, halarm⟩ hfirst hu₁
  obtain ⟨out, -, hmoves⟩ := moves_of_result hgood₁ ha hstep
  exact armed_moves halarm₁ hticks hstays hmoves hclock

end TimerUse

/-- The constructor sets `timerfd_`, also if it makes the first call of the process. -/
theorem TimerQueue.alarm_constructed (sIndexNum : Nat) (bsetup : Bool) (sentinel : Nat)
    {t0 : Timestamp} (ht0 : 0 ≤ t0) (clock : Clock) :
    (constructed sIndexNum bsetup sentinel t0 clock).Alarm ∧
      (constructed sIndexNum bsetup sentinel t0 clock).Armed clock := by
  have hfirst : ∀ e ∈ ((newTimer ⟨fun _ => none, sIndexNum, bsetup, .disarmed, .empty⟩ sentinel
      (t0.addSeconds csMaxTimer) false false none).withEntry
        ⟨t0.addSeconds csMaxTimer, sentinel⟩).timerLists, t0.addSeconds csMaxTimer ≤ e.first := by
    intro e he
    rcases OrderedSet.mem_insert.mp he with rfl | he
    · exact le_refl _
    · exact absurd he OrderedSet.mem_empty
  cases bsetup with
  | true => exact ⟨alarm_resetTimerFd rfl hfirst clock, armed_resetTimerFd rfl hfirst clock⟩
  | false =>
      have hfd := timerfd_resetTimerFd_first (q := (newTimer ⟨fun _ => none, sIndexNum, false,
        .disarmed, .empty⟩ sentinel (t0.addSeconds csMaxTimer) false false none).withEntry
          ⟨t0.addSeconds csMaxTimer, sentinel⟩) rfl (t := t0.addSeconds csMaxTimer)
        (le_trans (show Timestamp.csMicrosecondsPerSecond ≤ csMaxTimer by decide)
          (Int.le_add_of_nonneg_left ht0)) clock
      have halarm : (constructed sIndexNum false sentinel t0 clock).Alarm := by
        refine ⟨bsetup_resetTimerFd .., ?_⟩
        intro e he
        rw [(mem_constructed sIndexNum false sentinel t0 clock e).mp he, constructed, hfd.1]
        exact hfd.2
      refine ⟨halarm, halarm.armed ?_ ?_⟩ <;> rw [constructed, hfd.1] <;> trivial

/-- In every run whose steps all keep `timerfd_` set, the queue never goes deaf. -/
theorem neverDeaf {sentinel : Nat} (hpos : 0 < sentinel) (hlt : sentinel < UINTPTR_MAX)
    {t0 : Timestamp} (ht0 : 0 ≤ t0) (sIndexNum : Nat) (bsetup : Bool) (clock : Clock) :
    ∃ q, TimerQueue.new sIndexNum bsetup sentinel t0 clock = pure q ∧ q.Armed clock ∧
      ∀ steps, (alarmMachine.restrict TimerUse.StaysArmed).Legal (.start q) steps →
        NeverDeaf (.start q) steps := by
  obtain ⟨halarm, harmed⟩ := TimerQueue.alarm_constructed sIndexNum bsetup sentinel ht0 clock
  have hgood := TimerUse.good_new sIndexNum bsetup hpos hlt ht0 clock
  exact ⟨_, TimerQueue.new_eq sIndexNum bsetup hpos ht0 clock, harmed,
    fun steps hlegal => TimerUse.neverDeaf_of_alarm hgood halarm hlegal⟩

/-- A timer that expires when it is due. -/
theorem neverDeaf_inTime :
    ∃ q, TimerQueue.new 0 true 1 10 ⟨0, 10⟩ = pure q ∧
      NeverDeaf (.start q) [.addTimerAt 2 1000 none false ⟨0, 10⟩,
        .eventRead 1000 true (fun _ => ⟨0, 0⟩) ⟨990, 1000⟩] := by
  obtain ⟨q, hq, -, hruns⟩ :=
    neverDeaf (show 0 < 1 by decide) (by decide) (show (0 : Timestamp) ≤ 10 by decide) 0 true ⟨0, 10⟩
  refine ⟨q, hq, hruns _ ?_⟩
  obtain rfl := Except.ok.inj (congrArg Traced.result hq)
  have hfirst : ∀ e ∈ (TimerQueue.constructed 0 true 1 10 ⟨0, 10⟩).timerLists,
      (1000 : Timestamp) < e.first := by
    intro e he
    rw [(TimerQueue.mem_constructed _ _ _ _ _ e).mp he]
    decide
  refine Machine.legal_cons ⟨⟨⟨⟨by decide, by decide, rfl⟩, by decide⟩, ?_⟩, .inl hfirst⟩ rfl ?_
  · intro clock hclock
    obtain rfl := Option.some.inj hclock
    exact le_refl _
  refine Machine.legal_cons ⟨⟨trivial, ?_⟩, .inl ⟨⟨⟨1000, 2⟩, ?_, by decide⟩,
    ⟨10 + TimerQueue.csMaxTimer, 1⟩, ?_, by decide⟩⟩ rfl trivial
  · intro clock hclock
    obtain rfl := Option.some.inj hclock
    exact (by decide : (0 : Int) ≤ 990)
  · exact List.mem_cons_self ..
  · exact List.mem_cons_of_mem _ (List.mem_cons_self ..)

/-- The wall clock is put back by 500 microseconds while the timer runs. -/
theorem not_neverDeaf_clockBack :
    ∃ q steps, TimerQueue.new 0 true 1 10 ⟨0, 10⟩ = pure q ∧
      alarmMachine.Legal (.start q) steps ∧ ¬NeverDeaf (.start q) steps := by
  refine ⟨_, [.addTimerAt 2 1000 none false ⟨0, 10⟩,
    .eventRead 500 true (fun _ => ⟨0, 0⟩) ⟨990, 500⟩], rfl, ?_, ?_⟩
  · refine Machine.legal_cons ⟨⟨⟨by decide, by decide, rfl⟩, by decide⟩, ?_⟩ rfl ?_
    · intro clock hclock
      obtain rfl := Option.some.inj hclock
      exact le_refl _
    refine Machine.legal_cons ⟨trivial, ?_⟩ rfl trivial
    intro clock hclock
    obtain rfl := Option.some.inj hclock
    exact (by decide : (0 : Int) ≤ 990)
  · intro h
    obtain ⟨expires, hexpires, -⟩ := h [.addTimerAt 2 1000 none false ⟨0, 10⟩]
      (.eventRead 500 true (fun _ => ⟨0, 0⟩) ⟨990, 500⟩) (List.prefix_refl _) _ rfl _ rfl
      ⟨1000, 2⟩ rfl
    cases hexpires

end WebsocketCpp
