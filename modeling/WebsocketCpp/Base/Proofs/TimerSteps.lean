import WebsocketCpp.Base.TimerQueue

/-!
# What the operations of the timer queue do

One lemma for each function of `base/TimerQueue.cpp`, under the invariant `Consistent`: an entry of
`timerLists_` holds a copy of the expiration of a timer on the heap. None of the functions uses a
deleted timer then, and all of them keep the invariant.
-/

namespace WebsocketCpp

/-- What becomes of an expired timer. -/
def Timer.expired (tm : Timer) (r : Restart) : Option Timer :=
  if tm.brepeat then
    if (tm.restartTimer r).expiration.valid then some (tm.restartTimer r) else none
  else some tm

theorem Timer.index_expired {tm tm' : Timer} {r : Restart} (h : tm' ∈ tm.expired r) :
    tm'.index = tm.index := by
  unfold expired at h
  split at h
  · split at h
    · rcases Option.some.inj h with rfl
      exact tm.index_restartTimer r
    · cases h
  · rcases Option.some.inj h with rfl
    rfl

namespace TimerQueue

/-- Entries agree with the timers they point to, and indices tell timers apart. -/
structure Consistent (q : TimerQueue) : Prop where
  entry : ∀ e ∈ q.timerLists, ∃ tm, q.heap e.second = some tm ∧ tm.expiration = e.first
  valid : ∀ e ∈ q.timerLists, e.first.valid
  address : ∀ p tm, q.heap p = some tm → 0 < p ∧ p < UINTPTR_MAX ∧ tm.index < q.sIndexNum
  index : ∀ p p' tm tm', q.heap p = some tm → q.heap p' = some tm' → tm.index = tm'.index → p = p'

/-- No entry points to the address. -/
def Unqueued (q : TimerQueue) (p : Nat) : Prop := ∀ e ∈ q.timerLists, e.second ≠ p

section Fields

variable (q : TimerQueue) (tm : Timestamp) (clock : Clock) (expired : Bool)

@[simp] theorem heap_resetTimerFd : (q.resetTimerFd tm clock).heap = q.heap := by
  unfold resetTimerFd; split <;> rfl

@[simp] theorem timerLists_resetTimerFd :
    (q.resetTimerFd tm clock).timerLists = q.timerLists := by
  unfold resetTimerFd; split <;> rfl

@[simp] theorem sIndexNum_resetTimerFd : (q.resetTimerFd tm clock).sIndexNum = q.sIndexNum := by
  unfold resetTimerFd; split <;> rfl

@[simp] theorem heap_readTimerfd : (q.readTimerfd expired).heap = q.heap := by
  unfold readTimerfd; split <;> rfl

@[simp] theorem timerLists_readTimerfd : (q.readTimerfd expired).timerLists = q.timerLists := by
  unfold readTimerfd; split <;> rfl

@[simp] theorem sIndexNum_readTimerfd : (q.readTimerfd expired).sIndexNum = q.sIndexNum := by
  unfold readTimerfd; split <;> rfl

@[simp] theorem timerLists_setTimer (p : Nat) (t : Option Timer) :
    (q.setTimer p t).timerLists = q.timerLists := rfl

@[simp] theorem heap_setTimer_self (p : Nat) (t : Option Timer) : (q.setTimer p t).heap p = t :=
  Function.update_self ..

@[simp] theorem heap_setTimer_of_ne {p p' : Nat} (h : p' ≠ p) (t : Option Timer) :
    (q.setTimer p t).heap p' = q.heap p' := Function.update_of_ne h ..

end Fields

theorem timer_eq {q : TimerQueue} {p : Nat} {tm : Timer} (h : q.heap p = some tm) :
    q.timer p = pure tm := by
  rw [timer, h]

namespace Consistent

variable {q : TimerQueue}

/-- Only the heap, the counter and the entries matter. -/
theorem congr {q' : TimerQueue} (h : q.Consistent) (hheap : q'.heap = q.heap)
    (hnum : q'.sIndexNum = q.sIndexNum) (hlists : ∀ e, e ∈ q'.timerLists → e ∈ q.timerLists) :
    q'.Consistent where
  entry e he := by rw [hheap]; exact h.entry e (hlists e he)
  valid e he := h.valid e (hlists e he)
  address p tm htm := by rw [hheap] at htm; rw [hnum]; exact h.address p tm htm
  index p p' tm tm' htm htm' := by rw [hheap] at htm htm'; exact h.index p p' tm tm' htm htm'

theorem resetTimerFd (h : q.Consistent) (tm : Timestamp) (clock : Clock) :
    (q.resetTimerFd tm clock).Consistent :=
  h.congr (by simp) (by simp) (by simp)

/-- An address has one entry at most. -/
theorem entry_unique (h : q.Consistent) {e e' : TimerEntity} (he : e ∈ q.timerLists)
    (he' : e' ∈ q.timerLists) (heq : e.second = e'.second) : e = e' := by
  rcases h.entry e he with ⟨tm, htm, hexp⟩
  rcases h.entry e' he' with ⟨tm', htm', hexp'⟩
  rw [heq, htm'] at htm
  rcases Option.some.inj htm with rfl
  rcases e with ⟨t, p⟩
  rcases e' with ⟨t', p'⟩
  exact congrArg₂ TimerEntity.mk (hexp.symm.trans hexp') heq

/-- A timer out of the queue may be changed or deleted, as long as it keeps its index. -/
theorem setTimer (h : q.Consistent) {p : Nat} {tm : Timer} (htm : q.heap p = some tm)
    (hp : q.Unqueued p) {t : Option Timer} (ht : ∀ tm' ∈ t, tm'.index = tm.index) :
    (q.setTimer p t).Consistent where
  entry e he := by
    rw [heap_setTimer_of_ne q (hp e he)]
    exact h.entry e he
  valid := h.valid
  address p' tm' htm' := by
    by_cases hpp : p' = p
    · subst hpp
      rw [heap_setTimer_self] at htm'
      rw [ht tm' htm']
      exact h.address p' tm htm
    · rw [heap_setTimer_of_ne q hpp] at htm'
      exact h.address p' tm' htm'
  index p₁ p₂ tm₁ tm₂ h₁ h₂ heq := by
    have hold : ∀ p' tm', (q.setTimer p t).heap p' = some tm' →
        ∃ tm'', q.heap p' = some tm'' ∧ tm''.index = tm'.index := by
      intro p' tm' htm'
      by_cases hpp : p' = p
      · subst hpp
        rw [heap_setTimer_self] at htm'
        exact ⟨tm, htm, (ht tm' htm').symm⟩
      · rw [heap_setTimer_of_ne q hpp] at htm'
        exact ⟨tm', htm', rfl⟩
    rcases hold p₁ tm₁ h₁ with ⟨tm₁', h₁', hi₁⟩
    rcases hold p₂ tm₂ h₂ with ⟨tm₂', h₂', hi₂⟩
    exact h.index p₁ p₂ tm₁' tm₂' h₁' h₂' (hi₁.trans (heq.trans hi₂.symm))

theorem insertEntry (h : q.Consistent) {p : Nat} {tm : Timer} (htm : q.heap p = some tm)
    (hvalid : tm.expiration.valid) :
    Consistent { q with timerLists := q.timerLists.insert ⟨tm.expiration, p⟩ } where
  entry e he := by
    rcases OrderedSet.mem_insert.mp he with rfl | he
    · exact ⟨tm, htm, rfl⟩
    · exact h.entry e he
  valid e he := by
    rcases OrderedSet.mem_insert.mp he with rfl | he
    · exact hvalid
    · exact h.valid e he
  address := h.address
  index := h.index

theorem newTimer (h : q.Consistent) {p : Nat} (hpos : 0 < p) (hlt : p < UINTPTR_MAX)
    (hfree : q.heap p = none) (expiration : Timestamp) (brepeat compute : Bool)
    (interval : Option Nat) :
    (q.newTimer p expiration brepeat compute interval).Consistent := by
  have hheap : ∀ p' tm', (q.newTimer p expiration brepeat compute interval).heap p' = some tm' →
      (p' = p ∧ tm'.index = q.sIndexNum) ∨ (p' ≠ p ∧ q.heap p' = some tm') := by
    intro p' tm' htm'
    by_cases hpp : p' = p
    · subst hpp
      rcases Option.some.inj ((heap_setTimer_self q p' _).symm.trans htm') with rfl
      exact .inl ⟨rfl, rfl⟩
    · exact .inr ⟨hpp, (heap_setTimer_of_ne q hpp _).symm.trans htm'⟩
  refine ⟨?_, h.valid, ?_, ?_⟩
  · intro e he
    rcases h.entry e he with ⟨tm, htm, hexp⟩
    refine ⟨tm, (heap_setTimer_of_ne q ?_ _).trans htm, hexp⟩
    intro heq
    rw [heq, hfree] at htm
    cases htm
  · intro p' tm' htm'
    show 0 < p' ∧ p' < UINTPTR_MAX ∧ tm'.index < q.sIndexNum + 1
    rcases hheap p' tm' htm' with ⟨rfl, hindex⟩ | ⟨-, hold⟩
    · exact ⟨hpos, hlt, by omega⟩
    · have haddress := h.address p' tm' hold
      exact ⟨haddress.1, haddress.2.1, by omega⟩
  · intro p₁ p₂ tm₁ tm₂ h₁ h₂ heq
    rcases hheap p₁ tm₁ h₁ with ⟨rfl, hi₁⟩ | ⟨-, hold₁⟩ <;>
      rcases hheap p₂ tm₂ h₂ with ⟨rfl, hi₂⟩ | ⟨-, hold₂⟩
    · rfl
    · have hlt₂ := (h.address p₂ tm₂ hold₂).2.2
      omega
    · have hlt₁ := (h.address p₁ tm₁ hold₁).2.2
      omega
    · exact h.index p₁ p₂ tm₁ tm₂ hold₁ hold₂ heq

end Consistent

/-! ## Adding a timer -/

/-- `timerfd_` is set to the first entry again where it has changed. -/
def rearm (q : TimerQueue) (clock : Clock) : TimerQueue :=
  match q.timerLists.first? with
  | none => q
  | some it => q.resetTimerFd it.first clock

/-- The queue with a further entry. -/
def withEntry (q : TimerQueue) (e : TimerEntity) : TimerQueue :=
  { q with timerLists := q.timerLists.insert e }

/-- A valid timer is inserted; the flag says whether it is before all others. -/
theorem insert_valid {q : TimerQueue} {p : Nat} {tm : Timer} (htm : q.heap p = some tm)
    (hvalid : tm.expiration.valid) :
    ∃ b, q.insert p = pure (q.withEntry ⟨tm.expiration, p⟩, b) ∧
      (b = true ↔ ∀ e ∈ q.timerLists, tm.expiration < e.first) := by
  rw [insert, timer_eq htm, pure_bind, if_neg (not_not.mpr hvalid)]
  refine ⟨_, rfl, ?_⟩
  split
  · rename_i hnone
    exact iff_of_true rfl fun e he => absurd he (OrderedSet.first?_eq_none.mp hnone e)
  · rename_i it hit
    rw [decide_eq_true_iff]
    constructor
    · exact fun hlt e he => lt_of_lt_of_le hlt
        (TimerEntity.first_le_of_le (OrderedSet.le_of_first? hit he))
    · exact fun hall => hall it (OrderedSet.mem_of_first? hit)

/-- An invalid one is deleted. -/
theorem insert_invalid {q : TimerQueue} {p : Nat} {tm : Timer} (htm : q.heap p = some tm)
    (hvalid : ¬tm.expiration.valid) : q.insert p = pure (q.setTimer p none, false) := by
  rw [insert, timer_eq htm, pure_bind, if_pos hvalid]

/-- `addTimer` for a valid timer. -/
theorem addTimer_valid {q : TimerQueue} {p : Nat} {tm : Timer} (hpos : 0 < p)
    (htm : q.heap p = some tm) (hvalid : tm.expiration.valid) (clock : Clock) :
    ∃ q', q.addTimer p clock = pure (q', .new tm.index p) ∧
      (q' = q.withEntry ⟨tm.expiration, p⟩ ∧ ¬(∀ e ∈ q.timerLists, tm.expiration < e.first) ∨
        q' = (q.withEntry ⟨tm.expiration, p⟩).resetTimerFd tm.expiration clock ∧
          ∀ e ∈ q.timerLists, tm.expiration < e.first) := by
  rcases insert_valid htm hvalid with ⟨b, hinsert, hb⟩
  have htm' : (q.withEntry ⟨tm.expiration, p⟩).heap p = some tm := htm
  rw [addTimer, Traced.require_true (Nat.ne_of_gt hpos), pure_bind, hinsert, pure_bind]
  dsimp only
  rw [timer_eq htm', pure_bind]
  cases b with
  | false =>
      rw [if_neg Bool.false_ne_true, timer_eq htm', pure_bind]
      exact ⟨_, rfl, .inl ⟨rfl, fun h => Bool.false_ne_true (hb.mpr h)⟩⟩
  | true =>
      have htm'' : ((q.withEntry ⟨tm.expiration, p⟩).resetTimerFd tm.expiration clock).heap p =
          some tm := (congrFun (heap_resetTimerFd ..) p).trans htm
      rw [if_pos rfl, timer_eq htm'', pure_bind]
      exact ⟨_, rfl, .inr ⟨rfl, hb.mp rfl⟩⟩

/-- The other overload constructs the timer first. -/
theorem addTimerAt_eq {q : TimerQueue} {p : Nat} (hpos : 0 < p) {time : Timestamp}
    (hvalid : time.valid) (interval : Option Nat) (brepeat : Bool) (clock : Clock) :
    q.addTimerAt p time interval brepeat clock =
      (q.newTimer p time brepeat false interval).addTimer p clock := by
  have htm : (q.newTimer p time brepeat false interval).heap p =
      some ⟨q.sIndexNum, time, brepeat, false, interval⟩ := heap_setTimer_self q p _
  rcases insert_valid htm hvalid with ⟨b, hinsert, -⟩
  have htm' : ((q.newTimer p time brepeat false interval).withEntry ⟨time, p⟩).heap p =
      some ⟨q.sIndexNum, time, brepeat, false, interval⟩ := htm
  rw [addTimerAt, addTimer, Traced.require_true (Nat.ne_of_gt hpos), pure_bind]
  rw [hinsert, pure_bind, pure_bind]
  dsimp only
  rw [timer_eq htm', pure_bind]

/-! ## Expired timers -/

/-- The entries that are due, in order. -/
def due (q : TimerQueue) (evtime : Timestamp) : List TimerEntity :=
  q.timerLists.below ⟨evtime, UINTPTR_MAX⟩

/-- The queue without the entries that are due. -/
def withoutDue (q : TimerQueue) (evtime : Timestamp) : TimerQueue :=
  { q with timerLists := q.timerLists.atLeast ⟨evtime, UINTPTR_MAX⟩ }

/-- Some entries are due and some are not. -/
def SomeExpire (q : TimerQueue) (evtime : Timestamp) : Prop :=
  (∃ e ∈ q.timerLists, e.first ≤ evtime) ∧ ∃ e ∈ q.timerLists, evtime < e.first

theorem mem_due {q : TimerQueue} (h : q.Consistent) (evtime : Timestamp) (e : TimerEntity) :
    e ∈ q.due evtime ↔ e ∈ q.timerLists ∧ e.first ≤ evtime := by
  rw [due, OrderedSet.mem_below]
  apply and_congr_right
  intro he
  rcases h.entry e he with ⟨tm, htm, -⟩
  exact TimerEntity.lt_expireKey (h.address _ _ htm).2.1 evtime

theorem mem_withoutDue {q : TimerQueue} (h : q.Consistent) (evtime : Timestamp) (e : TimerEntity) :
    e ∈ (q.withoutDue evtime).timerLists ↔ e ∈ q.timerLists ∧ evtime < e.first := by
  rw [withoutDue, OrderedSet.mem_atLeast]
  apply and_congr_right
  intro he
  rcases h.entry e he with ⟨tm, htm, -⟩
  rw [TimerEntity.lt_expireKey (h.address _ _ htm).2.1 evtime, not_le]

/-- Something is left: the entries that are due are taken out. -/
theorem getExpireTimer_of_exists {q : TimerQueue} (h : q.Consistent) {evtime : Timestamp}
    (hlater : ∃ e ∈ q.timerLists, evtime < e.first) :
    q.getExpireTimer evtime = (q.withoutDue evtime, q.due evtime) := by
  rcases hlater with ⟨e, he, hlt⟩
  apply if_neg
  intro hnone
  exact OrderedSet.first?_eq_none.mp hnone e ((mem_withoutDue h evtime e).mpr ⟨he, hlt⟩)

/-- Nothing is taken out, because nothing is due or because everything is. -/
theorem getExpireTimer_idle {q : TimerQueue} (h : q.Consistent) {evtime : Timestamp}
    (hidle : ¬q.SomeExpire evtime) : q.getExpireTimer evtime = (q, []) := by
  by_cases hlater : ∃ e ∈ q.timerLists, evtime < e.first
  · have hdue : ∀ e ∈ q.timerLists, ¬e.first ≤ evtime := fun e he hle =>
      hidle ⟨⟨e, he, hle⟩, hlater⟩
    have hnil : q.due evtime = [] := List.eq_nil_iff_forall_not_mem.mpr fun e he =>
      hdue e ((mem_due h evtime e).mp he).1 ((mem_due h evtime e).mp he).2
    have hall : q.withoutDue evtime = q := by
      rw [withoutDue, OrderedSet.atLeast_eq_self]
      intro e he hlt
      exact hdue e he ((mem_due h evtime e).mp (OrderedSet.mem_below.mpr ⟨he, hlt⟩)).2
    rw [getExpireTimer_of_exists h hlater, hnil, hall]
  · refine if_pos (OrderedSet.first?_eq_none.mpr fun e he => hlater ⟨e, ?_⟩)
    exact (mem_withoutDue h evtime e).mp he

/-- The events of the timers at the addresses of some entries. -/
def runs (q : TimerQueue) (vec : List TimerEntity) : List TimerEvent :=
  vec.filterMap fun e => (q.heap e.second).map fun tm => .run e.second tm.index

theorem runs_cons {q : TimerQueue} {e : TimerEntity} {tm : Timer} (htm : q.heap e.second = some tm)
    (vec : List TimerEntity) : q.runs (e :: vec) = .run e.second tm.index :: q.runs vec := by
  rw [runs, List.filterMap_cons, htm]
  rfl

theorem mem_runs {q : TimerQueue} {vec : List TimerEntity} {o : TimerEvent} :
    o ∈ q.runs vec ↔ ∃ e ∈ vec, ∃ tm, q.heap e.second = some tm ∧ o = .run e.second tm.index := by
  simp only [runs, List.mem_filterMap, Option.map_eq_some_iff, eq_comm (a := o)]

/-- Two entries are two timers. -/
theorem nodup_runs {q : TimerQueue} (h : q.Consistent) {vec : List TimerEntity}
    (hvec : ∀ e ∈ vec, e ∈ q.timerLists) (hnodup : vec.Nodup) : (q.runs vec).Nodup := by
  induction vec with
  | nil => exact List.nodup_nil
  | cons e vec ih =>
      rcases List.forall_mem_cons.mp hvec with ⟨he, hvec'⟩
      rcases List.nodup_cons.mp hnodup with ⟨hnotin, hnodup'⟩
      rcases h.entry e he with ⟨tm, htm, -⟩
      rw [runs_cons htm, List.nodup_cons]
      refine ⟨fun hmem => hnotin ?_, ih hvec' hnodup'⟩
      rcases mem_runs.mp hmem with ⟨e', he', tm', htm', heq⟩
      rwa [h.entry_unique he (hvec' e' he') (TimerEvent.run.inj heq).1]

theorem runAll_eq {q : TimerQueue} (h : q.Consistent) {vec : List TimerEntity}
    (hlive : ∀ e ∈ vec, ∃ tm, q.heap e.second = some tm) : q.runAll vec = ⟨q.runs vec, .ok ()⟩ := by
  induction vec with
  | nil => rfl
  | cons e vec ih =>
      rcases List.forall_mem_cons.mp hlive with ⟨⟨tm, htm⟩, hvec⟩
      have hne : e.second ≠ 0 := Nat.ne_of_gt (h.address _ _ htm).1
      rw [runAll, if_pos hne, timer_eq htm, pure_bind, ih hvec, runs_cons htm]
      rfl

/-- The entry of a timer that is restarted. -/
def Restarts (q : TimerQueue) (restarts : Nat → Restart) (vec : List TimerEntity)
    (x : TimerEntity) : Prop :=
  ∃ e ∈ vec, ∃ tm, q.heap e.second = some tm ∧ tm.brepeat = true ∧
    (tm.restartTimer (restarts e.second)).expiration.valid ∧
    x = ⟨(tm.restartTimer (restarts e.second)).expiration, e.second⟩

/-- Some expired timers are restarted or kept; all else is as it was. -/
structure Restarted (q : TimerQueue) (restarts : Nat → Restart) (vec : List TimerEntity)
    (q' : TimerQueue) : Prop where
  expired : ∀ e ∈ vec, ∀ tm, q.heap e.second = some tm →
    q'.heap e.second = tm.expired (restarts e.second)
  others : ∀ p, (∀ e ∈ vec, e.second ≠ p) → q'.heap p = q.heap p
  entries : ∀ x, x ∈ q'.timerLists ↔ x ∈ q.timerLists ∨ q.Restarts restarts vec x
  sIndexNum_eq : q'.sIndexNum = q.sIndexNum
  bsetup_eq : q'.bsetup = q.bsetup
  timerfd_eq : q'.timerfd = q.timerfd

/-- What one round makes of an expired timer. -/
def afterRestart (q : TimerQueue) (p : Nat) (tm : Timer) (r : Restart) : TimerQueue :=
  if tm.brepeat = true ∧ (tm.restartTimer r).expiration.valid then
    (q.setTimer p (tm.expired r)).withEntry ⟨(tm.restartTimer r).expiration, p⟩
  else q.setTimer p (tm.expired r)

theorem restart_eq {q : TimerQueue} (restarts : Nat → Restart) {e : TimerEntity} {tm : Timer}
    (htm : q.heap e.second = some tm) :
    restart restarts q e = pure (q.afterRestart e.second tm (restarts e.second)) := by
  rw [restart, timer_eq htm, pure_bind]
  by_cases hrep : tm.brepeat = true
  · have htm' : (q.setTimer e.second (some (tm.restartTimer (restarts e.second)))).heap e.second =
        some (tm.restartTimer (restarts e.second)) := heap_setTimer_self ..
    rw [if_pos hrep]
    dsimp only
    by_cases hvalid : (tm.restartTimer (restarts e.second)).expiration.valid
    · rcases insert_valid htm' hvalid with ⟨b, hinsert, -⟩
      rw [hinsert, pure_bind, afterRestart, if_pos ⟨hrep, hvalid⟩, Timer.expired, if_pos hrep,
        if_pos hvalid]
    · rw [insert_invalid htm' hvalid, pure_bind, afterRestart, if_neg fun h => hvalid h.2,
        Timer.expired, if_pos hrep, if_neg hvalid, setTimer, setTimer, setTimer,
        Function.update_idem]
  · rw [if_neg hrep, afterRestart, if_neg fun h => hrep h.1, Timer.expired, if_neg hrep, setTimer,
      ← htm, Function.update_eq_self]

/-- One round. -/
theorem restart_spec {q : TimerQueue} (h : q.Consistent) (restarts : Nat → Restart)
    {e : TimerEntity} {tm : Timer} (htm : q.heap e.second = some tm) (hout : q.Unqueued e.second) :
    ∃ q', restart restarts q e = pure q' ∧ q.Restarted restarts [e] q' ∧ q'.Consistent := by
  have hset := h.setTimer htm hout (t := tm.expired (restarts e.second))
    fun tm' htm' => Timer.index_expired htm'
  have hheap : (q.afterRestart e.second tm (restarts e.second)).heap =
      (q.setTimer e.second (tm.expired (restarts e.second))).heap := by
    unfold afterRestart
    split <;> rfl
  refine ⟨_, restart_eq restarts htm, ⟨?_, ?_, ?_, ?_, ?_, ?_⟩, ?_⟩
  · intro e' he' tm' htm'
    rcases List.mem_singleton.mp he' with rfl
    rw [htm] at htm'
    rcases Option.some.inj htm' with rfl
    rw [hheap, heap_setTimer_self]
  · intro p hp
    rw [hheap, heap_setTimer_of_ne q (hp e (List.mem_singleton_self e)).symm]
  · intro x
    have hsingle : q.Restarts restarts [e] x ↔ (tm.brepeat = true ∧
        (tm.restartTimer (restarts e.second)).expiration.valid) ∧
        x = ⟨(tm.restartTimer (restarts e.second)).expiration, e.second⟩ := by
      constructor
      · rintro ⟨e', he', tm', htm', hrep, hvalid, hx⟩
        rcases List.mem_singleton.mp he' with rfl
        rw [htm] at htm'
        rcases Option.some.inj htm' with rfl
        exact ⟨⟨hrep, hvalid⟩, hx⟩
      · exact fun ⟨⟨hrep, hvalid⟩, hx⟩ => ⟨e, List.mem_singleton_self e, tm, htm, hrep, hvalid, hx⟩
    rw [hsingle, afterRestart]
    split
    · rename_i hcond
      rw [and_iff_right hcond, or_comm]
      exact OrderedSet.mem_insert
    · rename_i hcond
      rw [or_iff_left fun hx => hcond hx.1]
      rfl
  · unfold afterRestart
    split <;> rfl
  · unfold afterRestart
    split <;> rfl
  · unfold afterRestart
    split <;> rfl
  · unfold afterRestart
    split
    · rename_i hcond
      have hexp : tm.expired (restarts e.second) = some (tm.restartTimer (restarts e.second)) := by
        rw [Timer.expired, if_pos hcond.1, if_pos hcond.2]
      rw [hexp] at hset ⊢
      exact hset.insertEntry (heap_setTimer_self ..) hcond.2
    · exact hset

/-- One round and the rest of the loop. -/
theorem Restarted.cons {q q₁ q₂ : TimerQueue} {restarts : Nat → Restart} {e : TimerEntity}
    {vec : List TimerEntity} (h₁ : q.Restarted restarts [e] q₁) (h₂ : q₁.Restarted restarts vec q₂)
    (hne : ∀ e' ∈ vec, e'.second ≠ e.second) : q.Restarted restarts (e :: vec) q₂ := by
  have hheap : ∀ e' ∈ vec, q₁.heap e'.second = q.heap e'.second := fun e' he' =>
    h₁.others e'.second fun x hx => by
      rw [List.mem_singleton.mp hx]
      exact (hne e' he').symm
  refine ⟨?_, ?_, ?_, ?_, ?_, ?_⟩
  · intro e' he' tm htm
    rcases List.mem_cons.mp he' with rfl | he'
    · rw [h₂.others _ hne]
      exact h₁.expired _ (List.mem_singleton_self _) tm htm
    · exact h₂.expired e' he' tm ((hheap e' he').trans htm)
  · intro p hp
    rcases List.forall_mem_cons.mp hp with ⟨he, hvec⟩
    rw [h₂.others p hvec]
    exact h₁.others p (List.forall_mem_singleton.mpr he)
  · intro x
    rw [h₂.entries, h₁.entries, or_assoc]
    apply or_congr_right
    constructor
    · rintro (⟨e', he', hx⟩ | ⟨e', he', tm, htm, hx⟩)
      · exact ⟨e', List.mem_cons.mpr (.inl (List.mem_singleton.mp he')), hx⟩
      · exact ⟨e', List.mem_cons_of_mem e he', tm, (hheap e' he').symm.trans htm, hx⟩
    · rintro ⟨e', he', tm, htm, hx⟩
      rcases List.mem_cons.mp he' with rfl | he'
      · exact .inl ⟨e', List.mem_singleton_self e', tm, htm, hx⟩
      · exact .inr ⟨e', he', tm, (hheap e' he').trans htm, hx⟩
  · exact h₂.sIndexNum_eq.trans h₁.sIndexNum_eq
  · exact h₂.bsetup_eq.trans h₁.bsetup_eq
  · exact h₂.timerfd_eq.trans h₁.timerfd_eq

/-- The loop of `resetExpired`, for timers that have been taken out. -/
theorem restartAll_spec {q : TimerQueue} (h : q.Consistent) (restarts : Nat → Restart)
    {vec : List TimerEntity} (hlive : ∀ e ∈ vec, ∃ tm, q.heap e.second = some tm)
    (hout : ∀ e ∈ vec, q.Unqueued e.second) (hnodup : (vec.map TimerEntity.second).Nodup) :
    ∃ q', vec.foldlM (restart restarts) q = pure q' ∧ q.Restarted restarts vec q' ∧
      q'.Consistent := by
  induction vec generalizing q with
  | nil =>
      refine ⟨q, rfl, ⟨by simp, by simp, fun x => ?_, rfl, rfl, rfl⟩, h⟩
      rw [or_iff_left]
      rintro ⟨e, he, -⟩
      cases he
  | cons e vec ih =>
      rcases List.forall_mem_cons.mp hlive with ⟨⟨tm, htm⟩, hlive'⟩
      rcases List.forall_mem_cons.mp hout with ⟨he, hout'⟩
      rw [List.map_cons, List.nodup_cons] at hnodup
      have hne : ∀ e' ∈ vec, e'.second ≠ e.second := fun e' he' heq =>
        hnodup.1 (heq ▸ List.mem_map_of_mem he')
      rcases restart_spec h restarts htm he with ⟨q₁, hstep, hrestarted, hq₁⟩
      obtain ⟨q₂, hrest, hrestarted', hq₂⟩ := ih hq₁
        (fun e' he' => by
          rw [hrestarted.others e'.second (List.forall_mem_singleton.mpr (hne e' he').symm)]
          exact hlive' e' he')
        (fun e' he' x hx => by
          rcases (hrestarted.entries x).mp hx with hx | ⟨e'', he'', -, -, -, -, rfl⟩
          · exact hout' e' he' x hx
          · rw [List.mem_singleton.mp he'']
            exact (hne e' he').symm)
        hnodup.2
      refine ⟨q₂, ?_, hrestarted.cons hrestarted' hne, hq₂⟩
      rw [List.foldlM_cons, hstep, pure_bind, hrest]

/-- After the loop `timerfd_` is set to the first entry. -/
theorem resetExpired_eq {q q' : TimerQueue} {restarts : Nat → Restart} {vec : List TimerEntity}
    (hloop : vec.foldlM (restart restarts) q = pure q') (h : q'.Consistent) (clock : Clock) :
    q.resetExpired vec restarts clock = pure (q'.rearm clock) := by
  rw [resetExpired, hloop, pure_bind, rearm]
  cases hfirst : q'.timerLists.first? with
  | none => rfl
  | some it =>
      have hit := OrderedSet.mem_of_first? hfirst
      rcases h.entry it hit with ⟨tm, htm, hexp⟩
      dsimp only
      rw [timer_eq htm, pure_bind, hexp, if_pos (h.valid it hit)]

theorem Consistent.rearm {q : TimerQueue} (h : q.Consistent) (clock : Clock) :
    (q.rearm clock).Consistent := by
  unfold TimerQueue.rearm
  split
  · exact h
  · exact h.resetTimerFd ..

@[simp] theorem heap_rearm (q : TimerQueue) (clock : Clock) : (q.rearm clock).heap = q.heap := by
  unfold rearm
  split
  · rfl
  · exact heap_resetTimerFd ..

@[simp] theorem timerLists_rearm (q : TimerQueue) (clock : Clock) :
    (q.rearm clock).timerLists = q.timerLists := by
  unfold rearm
  split
  · rfl
  · exact timerLists_resetTimerFd ..

@[simp] theorem sIndexNum_rearm (q : TimerQueue) (clock : Clock) :
    (q.rearm clock).sIndexNum = q.sIndexNum := by
  unfold rearm
  split
  · rfl
  · exact sIndexNum_resetTimerFd ..

/-- An event that finds nothing to take out only reads `timerfd_`. -/
theorem eventRead_idle {q : TimerQueue} (h : q.Consistent) (hne : q.timerLists.first? ≠ none)
    {evtime : Timestamp} (hidle : ¬q.SomeExpire evtime) (expired : Bool)
    (restarts : Nat → Restart) (clock : Clock) :
    q.eventRead evtime expired restarts clock = pure (q.readTimerfd expired) := by
  have hread : (q.readTimerfd expired).Consistent := h.congr (by simp) (by simp) (by simp)
  have hidle' : ¬(q.readTimerfd expired).SomeExpire evtime := by
    rwa [SomeExpire, timerLists_readTimerfd]
  rw [eventRead, Traced.require_true hne, pure_bind, getExpireTimer_idle hread hidle']
  exact if_pos rfl

/-- Any other event runs the timers that are due, restarts them, and sets `timerfd_` again. -/
theorem eventRead_fires {q : TimerQueue} (h : q.Consistent) {evtime : Timestamp}
    (hsome : q.SomeExpire evtime) (expired : Bool) (restarts : Nat → Restart) (clock : Clock) :
    ∃ q', ((q.readTimerfd expired).withoutDue evtime).Restarted restarts (q.due evtime) q' ∧
      q'.Consistent ∧
      q.eventRead evtime expired restarts clock =
        ⟨q.runs (q.due evtime), .ok (q'.rearm clock)⟩ := by
  have hread : (q.readTimerfd expired).Consistent := h.congr (by simp) (by simp) (by simp)
  have hlists := q.timerLists_readTimerfd expired
  have hheap := q.heap_readTimerfd expired
  have hdue : (q.readTimerfd expired).due evtime = q.due evtime := by rw [due, due, hlists]
  have hout : ((q.readTimerfd expired).withoutDue evtime).Consistent :=
    hread.congr rfl rfl fun e he => ((mem_withoutDue hread evtime e).mp he).1
  have hlive : ∀ e ∈ q.due evtime, ∃ tm, q.heap e.second = some tm := fun e he => by
    rcases h.entry e ((mem_due h evtime e).mp he).1 with ⟨tm, htm, -⟩
    exact ⟨tm, htm⟩
  have hunqueued : ∀ e ∈ q.due evtime,
      ((q.readTimerfd expired).withoutDue evtime).Unqueued e.second := by
    intro e he e' he' heq
    rcases (mem_due h evtime e).mp he with ⟨hmem, hle⟩
    rcases (mem_withoutDue hread evtime e').mp he' with ⟨hmem', hlt⟩
    rw [hlists] at hmem'
    rw [h.entry_unique hmem' hmem heq] at hlt
    exact absurd hle (not_le.mpr hlt)
  have hnodup : ((q.due evtime).map TimerEntity.second).Nodup := by
    refine List.Nodup.map_on ?_ (q.timerLists.nodup_below _)
    intro e he e' he' heq
    exact h.entry_unique ((mem_due h evtime e).mp he).1 ((mem_due h evtime e').mp he').1 heq
  obtain ⟨q', hloop, hrestarted, hq'⟩ := restartAll_spec hout restarts
    (fun e he => by rw [← hheap] at hlive; exact hlive e he) hunqueued hnodup
  refine ⟨q', hrestarted, hq', ?_⟩
  rcases hsome with ⟨⟨e, he, hle⟩, e', he', hlt⟩
  have hne : q.timerLists.first? ≠ none := fun hnone =>
    OrderedSet.first?_eq_none.mp hnone e he
  have hnonempty : q.due evtime ≠ [] := List.ne_nil_of_mem ((mem_due h evtime e).mpr ⟨he, hle⟩)
  have hruns : ((q.readTimerfd expired).withoutDue evtime).runs (q.due evtime) =
      q.runs (q.due evtime) := by
    rw [runs, runs, withoutDue, hheap]
  rw [eventRead, Traced.require_true hne, pure_bind,
    getExpireTimer_of_exists hread ⟨e', by rwa [hlists], hlt⟩, hdue]
  dsimp only
  rw [if_neg hnonempty, runAll_eq hout (fun e he => by
    rw [withoutDue, hheap]
    exact hlive e he), hruns, Traced.mk_bind, resetExpired_eq hloop hq']
  exact congrArg (Traced.mk · _) (List.append_nil _)

/-! ## Cancelling -/

/-- No entry points to the timer: nothing happens. -/
theorem delTimerInLoop_none {q : TimerQueue} {id : TimerId} (h : q.Unqueued id.tm) (clock : Clock) :
    q.delTimerInLoop id clock = pure q := by
  have hnone : q.timerLists.toList.find? (fun e => e.second = id.tm) = none :=
    List.find?_eq_none.mpr fun e he heq => h e he (of_decide_eq_true heq)
  rw [delTimerInLoop, hnone]

/-- The entry that points to the timer is erased, whatever the index of the id. -/
theorem delTimerInLoop_some {q : TimerQueue} (h : q.Consistent) {id : TimerId} {e : TimerEntity}
    (he : e ∈ q.timerLists) (heq : e.second = id.tm) {tm : Timer} (htm : q.heap id.tm = some tm)
    (clock : Clock) :
    q.delTimerInLoop id clock = ⟨[.deleted tm.index],
      .ok ({ q.setTimer id.tm none with timerLists := q.timerLists.erase e }.rearm clock)⟩ := by
  have hfind : q.timerLists.toList.find? (fun e => e.second = id.tm) = some e := by
    cases hfind : q.timerLists.toList.find? (fun e => e.second = id.tm) with
    | none => exact absurd (decide_eq_true heq) (List.find?_eq_none.mp hfind e he)
    | some e' =>
        have heq' : e'.second = id.tm := by simpa using List.find?_some hfind
        rw [h.entry_unique (List.mem_of_find?_eq_some hfind) he (heq'.trans heq.symm)]
  rw [delTimerInLoop, hfind]
  dsimp only
  rw [heq, timer_eq htm, pure_bind, Traced.emit_bind]
  dsimp only [rearm]
  cases (q.timerLists.erase e).first? <;> rfl

/-- The queue that is left is consistent. -/
theorem Consistent.erase {q : TimerQueue} (h : q.Consistent) {e : TimerEntity}
    (he : e ∈ q.timerLists) :
    Consistent { q.setTimer e.second none with timerLists := q.timerLists.erase e } := by
  rcases h.entry e he with ⟨tm, htm, -⟩
  have hout : Unqueued { q with timerLists := q.timerLists.erase e } e.second := by
    intro e' he' heq
    rcases OrderedSet.mem_erase.mp he' with ⟨hne, hmem⟩
    exact hne (h.entry_unique hmem he heq)
  have hless : Consistent { q with timerLists := q.timerLists.erase e } :=
    h.congr rfl rfl fun e' he' => (OrderedSet.mem_erase.mp he').2
  exact hless.setTimer htm hout (t := none) (by simp)

end TimerQueue

end WebsocketCpp
