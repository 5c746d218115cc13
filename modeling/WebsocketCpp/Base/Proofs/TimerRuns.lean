import WebsocketCpp.Base.Proofs.TimerSteps

/-!
# Steps of a program that uses a timer queue

`Moves` says once what each step can do; the results about runs go by its cases. `Good` is what holds
of every queue that is used as `Allowed` says.
-/

namespace WebsocketCpp

/-- A timer with the index is in the queue. -/
def TimerQueue.Queued (q : TimerQueue) (index : Nat) : Prop :=
  ∃ e ∈ q.timerLists, ∃ tm, q.heap e.second = some tm ∧ tm.index = index

namespace TimerUse

/-- The queue is consistent, timers that wait to be added are on the heap and not queued, and an id
that has been returned leads to its timer as long as that is on the heap. A timer with an id does
not wait to be added. -/
structure Good (u : TimerUse) : Prop where
  consistent : u.queue.Consistent
  pending_nodup : u.pending.Nodup
  pending : ∀ p ∈ u.pending, (∃ tm, u.queue.heap p = some tm) ∧ u.queue.Unqueued p
  issued : ∀ id index, (id, index) ∈ u.issued → index < u.queue.sIndexNum ∧ 0 < id.tm ∧
    ∀ p tm, u.queue.heap p = some tm → tm.index = index → p = id.tm
  apart : ∀ id index, (id, index) ∈ u.issued → ∀ p ∈ u.pending, ∀ tm, u.queue.heap p = some tm →
    tm.index ≠ index

/-- The program after it has constructed a timer. -/
def constructed (u : TimerUse) (p : Nat) (expiration : Timestamp) (brepeat compute : Bool)
    (interval : Option Nat) : TimerUse :=
  { u with
    queue := u.queue.newTimer p expiration brepeat compute interval
    pending := p :: u.pending }

/-- The step and what it does. -/
inductive Moves : TimerUse → TimerStep → List TimerEvent → TimerUse → Prop where
  | newTimer {u : TimerUse} {p : Nat} {expiration : Timestamp} {brepeat compute : Bool}
      {interval : Option Nat} (hfree : u.Free p) :
      Moves u (.newTimer p expiration brepeat compute interval) []
        (u.constructed p expiration brepeat compute interval)
  | addTimer {u : TimerUse} {p : Nat} {clock : Clock} {tm : Timer} {q : TimerQueue}
      (htm : u.queue.heap p = some tm) (hvalid : tm.expiration.valid) (hout : u.queue.Unqueued p)
      (hq : q = u.queue.withEntry ⟨tm.expiration, p⟩ ∧
          ¬(∀ e ∈ u.queue.timerLists, tm.expiration < e.first) ∨
        q = (u.queue.withEntry ⟨tm.expiration, p⟩).resetTimerFd tm.expiration clock ∧
          ∀ e ∈ u.queue.timerLists, tm.expiration < e.first) :
      Moves u (.addTimer p clock) []
        ⟨q, u.pending.erase p, (.new tm.index p, tm.index) :: u.issued⟩
  | addTimerAt {u u' : TimerUse} {p : Nat} {time : Timestamp} {interval : Option Nat}
      {brepeat : Bool} {clock : Clock} (hfree : u.Free p) (hvalid : time.valid)
      (hadd : Moves (u.constructed p time brepeat false interval) (.addTimer p clock) [] u') :
      Moves u (.addTimerAt p time interval brepeat clock) [] u'
  | delNothing {u : TimerUse} {id : TimerId} {clock : Clock} (hid : u.Known id)
      (hout : u.queue.Unqueued id.tm) : Moves u (.delTimerInLoop id clock) [] u
  | delTimer {u : TimerUse} {id : TimerId} {clock : Clock} {e : TimerEntity} {tm : Timer}
      (hid : u.Known id) (he : e ∈ u.queue.timerLists) (heq : e.second = id.tm)
      (htm : u.queue.heap e.second = some tm) :
      Moves u (.delTimerInLoop id clock) [.deleted tm.index]
        { u with queue :=
          { u.queue.setTimer e.second none with
            timerLists := u.queue.timerLists.erase e }.rearm clock }
  | eventIdle {u : TimerUse} {evtime : Timestamp} {expired : Bool} {restarts : Nat → Restart}
      {clock : Clock} (hidle : ¬u.queue.SomeExpire evtime) :
      Moves u (.eventRead evtime expired restarts clock) []
        { u with queue := u.queue.readTimerfd expired }
  | eventFires {u : TimerUse} {evtime : Timestamp} {expired : Bool} {restarts : Nat → Restart}
      {clock : Clock} {q : TimerQueue} (hsome : u.queue.SomeExpire evtime)
      (hq : ((u.queue.readTimerfd expired).withoutDue evtime).Restarted restarts
        (u.queue.due evtime) q) (hgood : q.Consistent) :
      Moves u (.eventRead evtime expired restarts clock) (u.queue.runs (u.queue.due evtime))
        { u with queue := q.rearm clock }

theorem step_addTimer {u : TimerUse} (h : u.Good) {p : Nat} (hadd : u.CanAdd p) (clock : Clock) :
    ∃ u', u.step (.addTimer p clock) = pure u' ∧ u.Moves (.addTimer p clock) [] u' := by
  rcases hadd with ⟨hout, tm, htm, hvalid⟩
  obtain ⟨q, hq, hcases⟩ :=
    TimerQueue.addTimer_valid (h.consistent.address p tm htm).1 htm hvalid clock
  have htm' : q.heap p = some tm := by
    rcases hcases with ⟨rfl, -⟩ | ⟨rfl, -⟩
    · exact htm
    · rw [TimerQueue.heap_resetTimerFd]
      exact htm
  refine ⟨_, ?_, .addTimer htm hvalid hout hcases⟩
  rw [step, hq, pure_bind, added, TimerQueue.timer_eq htm', pure_bind]

theorem Good.constructed {u : TimerUse} (h : u.Good) {p : Nat} (hfree : u.Free p)
    (expiration : Timestamp) (brepeat compute : Bool) (interval : Option Nat) :
    (u.constructed p expiration brepeat compute interval).Good := by
  rcases hfree with ⟨hpos, hlt, hnone⟩
  have hnew : ∀ p' tm', (u.queue.newTimer p expiration brepeat compute interval).heap p' = some tm' →
      tm'.index < u.queue.sIndexNum → u.queue.heap p' = some tm' := by
    intro p' tm' htm' hindex
    by_cases hpp : p' = p
    · subst hpp
      rcases Option.some.inj ((TimerQueue.heap_setTimer_self u.queue p' _).symm.trans htm') with rfl
      exact absurd hindex (Nat.lt_irrefl _)
    · exact (TimerQueue.heap_setTimer_of_ne u.queue hpp _).symm.trans htm'
  have hnotin : p ∉ u.pending := fun hp => by
    rcases (h.pending p hp).1 with ⟨tm, htm⟩
    rw [hnone] at htm
    cases htm
  refine ⟨h.consistent.newTimer hpos hlt hnone .., List.nodup_cons.mpr ⟨hnotin, h.pending_nodup⟩,
    ?_, ?_, ?_⟩
  · intro p' hp'
    rcases List.mem_cons.mp hp' with rfl | hp'
    · refine ⟨⟨_, TimerQueue.heap_setTimer_self u.queue p' _⟩, ?_⟩
      intro e he heq
      rcases h.consistent.entry e he with ⟨tm, htm, -⟩
      rw [heq, hnone] at htm
      cases htm
    · rcases h.pending p' hp' with ⟨⟨tm, htm⟩, hout⟩
      have hne : p' ≠ p := fun heq => hnotin (heq ▸ hp')
      exact ⟨⟨tm, (TimerQueue.heap_setTimer_of_ne u.queue hne _).trans htm⟩, hout⟩
  · intro id index hid
    rcases h.issued id index hid with ⟨hindex, hpos', hleads⟩
    exact ⟨Nat.lt_succ_of_lt hindex, hpos', fun p' tm' htm' heq =>
      hleads p' tm' (hnew p' tm' htm' (heq ▸ hindex)) heq⟩
  · intro id index hid p' hp' tm' htm' heq
    have hold := hnew p' tm' htm' (heq ▸ (h.issued id index hid).1)
    rcases List.mem_cons.mp hp' with rfl | hp'
    · rw [hnone] at hold
      cases hold
    · exact h.apart id index hid p' hp' tm' hold heq

/-- An allowed step does what `Moves` says; only an event needs an entry to look at. -/
theorem step_moves {u : TimerUse} (h : u.Good) {a : TimerStep} (ha : u.Allowed a)
    (hne : ∀ evtime expired restarts clock, a = .eventRead evtime expired restarts clock →
      u.queue.timerLists.first? ≠ none) :
    ∃ out u', u.step a = ⟨out, .ok u'⟩ ∧ u.Moves a out u' := by
  cases a with
  | newTimer p expiration brepeat compute interval => exact ⟨_, _, rfl, .newTimer ha⟩
  | addTimer p clock =>
      rcases step_addTimer h ha clock with ⟨u', hstep, hmoves⟩
      exact ⟨_, _, hstep, hmoves⟩
  | addTimerAt p time interval brepeat clock =>
      rcases ha with ⟨hfree, hvalid⟩
      have hgood := h.constructed hfree time brepeat false interval
      have hadd : (u.constructed p time brepeat false interval).CanAdd p :=
        ⟨(hgood.pending p (List.mem_cons_self ..)).2, _,
          TimerQueue.heap_setTimer_self u.queue p _, hvalid⟩
      rcases step_addTimer hgood hadd clock with ⟨u', hstep, hmoves⟩
      refine ⟨_, u', ?_, .addTimerAt hfree hvalid hmoves⟩
      have herase : (p :: u.pending).erase p = u.pending.erase p := by
        rw [List.erase_cons_head, List.erase_of_not_mem]
        intro hp
        rcases (h.pending p hp).1 with ⟨tm, htm⟩
        rw [hfree.2.2] at htm
        cases htm
      have hadded : (u.constructed p time brepeat false interval).added p = u.added p := by
        funext x
        rw [added, added]
        exact congrArg (fun l => x.1.timer p >>= fun tm =>
          pure (⟨x.1, l, (x.2, tm.index) :: u.issued⟩ : TimerUse)) herase
      refine Eq.trans ?_ hstep
      rw [step, step, TimerQueue.addTimerAt_eq hfree.1 hvalid, hadded]
      rfl
  | delTimerInLoop id clock =>
      by_cases hout : u.queue.Unqueued id.tm
      · refine ⟨_, u, ?_, .delNothing ha hout⟩
        rw [step, TimerQueue.delTimerInLoop_none hout]
        rfl
      · obtain ⟨e, he, heq⟩ : ∃ e ∈ u.queue.timerLists, e.second = id.tm := by
          by_contra hno
          exact hout fun e he heq => hno ⟨e, he, heq⟩
        rcases h.consistent.entry e he with ⟨tm, htm, -⟩
        refine ⟨_, _, ?_, .delTimer ha he heq htm⟩
        rw [step, TimerQueue.delTimerInLoop_some h.consistent he heq (heq ▸ htm), heq]
        rfl
  | eventRead evtime expired restarts clock =>
      by_cases hsome : u.queue.SomeExpire evtime
      · obtain ⟨q, hq, hgood, hstep⟩ :=
          TimerQueue.eventRead_fires h.consistent hsome expired restarts clock
        refine ⟨_, _, ?_, .eventFires hsome hq hgood⟩
        rw [step, hstep]
        exact congrArg (Traced.mk · _) (List.append_nil _)
      · refine ⟨_, _, ?_, .eventIdle hsome⟩
        rw [step, TimerQueue.eventRead_idle h.consistent (hne _ _ _ _ rfl) hsome]
        rfl

/-- So does every allowed step that succeeds. -/
theorem moves_of_result {u u' : TimerUse} (h : u.Good) {a : TimerStep} (ha : u.Allowed a)
    (hok : (u.step a).result = .ok u') : ∃ out, u.step a = ⟨out, .ok u'⟩ ∧ u.Moves a out u' := by
  obtain ⟨out, u'', hstep, hmoves⟩ := step_moves h ha (by
    rintro evtime expired restarts clock rfl hnone
    rw [step, TimerQueue.eventRead, Traced.require_false (not_not.mpr hnone)] at hok
    cases hok)
  rw [hstep] at hok
  rcases Except.ok.inj hok with rfl
  exact ⟨out, hstep, hmoves⟩

/-- A step that fails has done nothing. -/
theorem out_of_error {u : TimerUse} (h : u.Good) {a : TimerStep} (ha : u.Allowed a)
    {e : ObjectFault} (herr : (u.step a).result = .error e) : (u.step a).out = [] := by
  by_contra hout
  obtain ⟨out, u', hstep, -⟩ := step_moves h ha (by
    rintro evtime expired restarts clock rfl hnone
    rw [step, TimerQueue.eventRead, Traced.require_false (not_not.mpr hnone)] at hout
    exact hout rfl)
  rw [hstep] at herr
  cases herr

/-- A queue that keeps its timers and their indices keeps the ids right. -/
theorem Good.of_heap {u : TimerUse} (h : u.Good) {q : TimerQueue} (hq : q.Consistent)
    (hnum : q.sIndexNum = u.queue.sIndexNum)
    (hheap : ∀ p tm, q.heap p = some tm → ∃ tm', u.queue.heap p = some tm' ∧ tm'.index = tm.index)
    (hpending : ∀ p ∈ u.pending, (∃ tm, q.heap p = some tm) ∧ q.Unqueued p) :
    Good { u with queue := q } where
  consistent := hq
  pending_nodup := h.pending_nodup
  pending := hpending
  issued id index hid := by
    rcases h.issued id index hid with ⟨hindex, hpos, hleads⟩
    refine ⟨hnum ▸ hindex, hpos, ?_⟩
    intro p tm htm heq
    rcases hheap p tm htm with ⟨tm', htm', hsame⟩
    exact hleads p tm' htm' (hsame.trans heq)
  apart id index hid p hp tm htm := by
    rcases hheap p tm htm with ⟨tm', htm', hsame⟩
    exact hsame ▸ h.apart id index hid p hp tm' htm'

/-- The timers on the heap are those before an event, except that some have been restarted. -/
theorem heap_of_restarted {q q' : TimerQueue} {restarts : Nat → Restart} {vec : List TimerEntity}
    (h : q.Restarted restarts vec q') (hlive : ∀ e ∈ vec, ∃ tm, q.heap e.second = some tm) {p : Nat}
    {tm : Timer} (htm : q'.heap p = some tm) :
    ∃ tm', q.heap p = some tm' ∧ tm'.index = tm.index := by
  by_cases hvec : ∀ e ∈ vec, e.second ≠ p
  · rw [h.others p hvec] at htm
    exact ⟨tm, htm, rfl⟩
  · obtain ⟨e, he, rfl⟩ : ∃ e ∈ vec, e.second = p := by
      by_contra hno
      exact hvec fun e he heq => hno ⟨e, he, heq⟩
    rcases hlive e he with ⟨tm', htm'⟩
    rw [h.expired e he tm' htm'] at htm
    exact ⟨tm', htm', (Timer.index_expired htm).symm⟩

/-- An event keeps the timers that are left, up to their expiration. -/
theorem heap_of_event {u : TimerUse} (h : u.Good) {evtime : Timestamp} {expired : Bool}
    {restarts : Nat → Restart} {q : TimerQueue}
    (hq : ((u.queue.readTimerfd expired).withoutDue evtime).Restarted restarts
      (u.queue.due evtime) q) {p : Nat} {tm : Timer} (htm : q.heap p = some tm) :
    ∃ tm', u.queue.heap p = some tm' ∧ tm'.index = tm.index := by
  have hheap : ((u.queue.readTimerfd expired).withoutDue evtime).heap = u.queue.heap :=
    TimerQueue.heap_readTimerfd ..
  obtain ⟨tm', htm', heq⟩ := heap_of_restarted hq (fun e he => by
    obtain ⟨tm', htm', -⟩ := h.consistent.entry e ((TimerQueue.mem_due h.consistent evtime e).mp he).1
    exact ⟨tm', by rw [hheap, htm']⟩) htm
  exact ⟨tm', by rw [← hheap, htm'], heq⟩

/-- The entries that an event leaves are earlier ones that were not due, and restarted timers. -/
theorem entries_of_event {u : TimerUse} (h : u.Good) {evtime : Timestamp} {expired : Bool}
    {restarts : Nat → Restart} {q : TimerQueue}
    (hq : ((u.queue.readTimerfd expired).withoutDue evtime).Restarted restarts
      (u.queue.due evtime) q) (x : TimerEntity) :
    x ∈ q.timerLists ↔ x ∈ u.queue.timerLists ∧ evtime < x.first ∨
      u.queue.Restarts restarts (u.queue.due evtime) x := by
  rw [hq.entries, TimerQueue.mem_withoutDue (h.consistent.congr (by simp) (by simp) (by simp)),
    TimerQueue.timerLists_readTimerfd, TimerQueue.Restarts, TimerQueue.Restarts,
    TimerQueue.withoutDue, TimerQueue.heap_readTimerfd]

/-- Every entry that an event leaves has the address of an earlier one. -/
theorem address_of_event {u : TimerUse} (h : u.Good) {evtime : Timestamp} {expired : Bool}
    {restarts : Nat → Restart} {q : TimerQueue}
    (hq : ((u.queue.readTimerfd expired).withoutDue evtime).Restarted restarts
      (u.queue.due evtime) q) {x : TimerEntity} (hx : x ∈ q.timerLists) :
    ∃ e ∈ u.queue.timerLists, e.second = x.second := by
  rcases (entries_of_event h hq x).mp hx with hx | ⟨e, he, -, -, -, -, rfl⟩
  · exact ⟨x, hx.1, rfl⟩
  · exact ⟨e, ((TimerQueue.mem_due h.consistent evtime e).mp he).1, rfl⟩

/-- A cancellation deletes the timer and keeps the others. -/
theorem heap_of_setTimer_none {q : TimerQueue} {p p' : Nat} {tm : Timer}
    (htm : (q.setTimer p none).heap p' = some tm) : p' ≠ p ∧ q.heap p' = some tm := by
  by_cases hpp : p' = p
  · subst hpp
    rw [TimerQueue.heap_setTimer_self] at htm
    cases htm
  · exact ⟨hpp, (TimerQueue.heap_setTimer_of_ne q hpp _).symm.trans htm⟩

theorem Good.addTimer {u u' : TimerUse} (h : u.Good) {p : Nat} {clock : Clock}
    {out : List TimerEvent} (hmoves : u.Moves (.addTimer p clock) out u') : u'.Good := by
  cases hmoves with
  | @addTimer _ _ _ tm q htm hvalid hout hq =>
      have hcons := h.consistent.insertEntry htm hvalid
      obtain ⟨hheap, hnum, hlists⟩ : q.heap = u.queue.heap ∧ q.sIndexNum = u.queue.sIndexNum ∧
          q.timerLists = u.queue.timerLists.insert ⟨tm.expiration, p⟩ := by
        rcases hq with ⟨rfl, -⟩ | ⟨rfl, -⟩
        · exact ⟨rfl, rfl, rfl⟩
        · simp [TimerQueue.withEntry]
      refine ⟨hcons.congr hheap hnum (fun e he => hlists ▸ he), h.pending_nodup.erase p, ?_, ?_, ?_⟩
      · intro p' hp'
        rcases h.pending_nodup.mem_erase_iff.mp hp' with ⟨hne, hmem⟩
        rcases h.pending p' hmem with ⟨⟨tm', htm'⟩, hout'⟩
        refine ⟨⟨tm', by rw [hheap, htm']⟩, fun e he => ?_⟩
        rw [hlists] at he
        rcases OrderedSet.mem_insert.mp he with rfl | he
        · exact hne.symm
        · exact hout' e he
      · intro id index hid
        rw [hheap, hnum]
        rcases List.mem_cons.mp hid with hid | hid
        · rcases Prod.mk.inj hid with ⟨rfl, rfl⟩
          rcases h.consistent.address p tm htm with ⟨hpos, -, hindex⟩
          exact ⟨hindex, hpos, fun p' tm' htm' heq => h.consistent.index p' p tm' tm htm' htm heq⟩
        · exact h.issued id index hid
      · intro id index hid p' hp' tm' htm' heq
        rcases h.pending_nodup.mem_erase_iff.mp hp' with ⟨hne, hmem⟩
        rw [hheap] at htm'
        rcases List.mem_cons.mp hid with hid | hid
        · rcases Prod.mk.inj hid with ⟨-, rfl⟩
          exact hne (h.consistent.index p' p tm' tm htm' htm heq)
        · exact h.apart id index hid p' hmem tm' htm' heq

/-- Steps keep the invariant. -/
theorem Good.moves {u u' : TimerUse} (h : u.Good) {a : TimerStep} {out : List TimerEvent}
    (hmoves : u.Moves a out u') : u'.Good := by
  cases hmoves with
  | newTimer hfree => exact h.constructed hfree ..
  | addTimer htm hvalid hout hq => exact h.addTimer (.addTimer htm hvalid hout hq)
  | addTimerAt hfree hvalid hadd => exact (h.constructed hfree ..).addTimer hadd
  | delNothing => exact h
  | @delTimer _ id clock e tm hid he heq htm =>
      refine h.of_heap ((h.consistent.erase he).rearm clock) (by simp [TimerQueue.setTimer])
        (fun p' tm' htm' => ?_) (fun p' hp' => ?_)
      · rw [TimerQueue.heap_rearm] at htm'
        exact ⟨tm', (heap_of_setTimer_none htm').2, rfl⟩
      · rcases h.pending p' hp' with ⟨⟨tm', htm'⟩, hout⟩
        constructor
        · refine ⟨tm', ?_⟩
          rw [TimerQueue.heap_rearm]
          exact (TimerQueue.heap_setTimer_of_ne u.queue (hout e he).symm _).trans htm'
        · intro e' he'
          rw [TimerQueue.timerLists_rearm] at he'
          exact hout e' (OrderedSet.mem_erase.mp he').2
  | @eventIdle _ evtime expired restarts clock hidle =>
      refine h.of_heap (h.consistent.congr (by simp) (by simp) (by simp)) (by simp)
        (fun p' tm' htm' => ⟨tm', by simpa using htm', rfl⟩) (fun p' hp' => ?_)
      rw [TimerQueue.Unqueued, TimerQueue.heap_readTimerfd, TimerQueue.timerLists_readTimerfd]
      exact h.pending p' hp'
  | @eventFires _ evtime expired restarts clock q hsome hq hgood =>
      refine h.of_heap (hgood.rearm clock) ?_ ?_ ?_
      · rw [TimerQueue.sIndexNum_rearm, hq.sIndexNum_eq, TimerQueue.withoutDue,
          TimerQueue.sIndexNum_readTimerfd]
      · intro p' tm' htm'
        rw [TimerQueue.heap_rearm] at htm'
        exact heap_of_event h hq htm'
      · intro p' hp'
        rcases h.pending p' hp' with ⟨⟨tm', htm'⟩, hout⟩
        constructor
        · refine ⟨tm', ?_⟩
          rw [TimerQueue.heap_rearm, hq.others p' fun e he =>
            hout e ((TimerQueue.mem_due h.consistent evtime e).mp he).1, TimerQueue.withoutDue,
            TimerQueue.heap_readTimerfd, htm']
        · intro x hx
          rw [TimerQueue.timerLists_rearm] at hx
          rcases address_of_event h hq hx with ⟨e, he, heq⟩
          exact heq ▸ hout e he

/-! ## Timers that do not come back -/

/-- No timer is added twice. -/
def AddsOnce (u : TimerUse) : TimerStep → Prop
  | .addTimer p _ => p ∈ u.pending
  | _ => True

variable {u u' : TimerUse} {a : TimerStep} {out : List TimerEvent}

/-- The index has been used, and no timer that is queued or waits to be added has it. -/
structure Dead (index : Nat) (u : TimerUse) : Prop where
  used : index < u.queue.sIndexNum
  unqueued : ¬u.queue.Queued index
  unadded : ∀ p ∈ u.pending, ∀ tm, u.queue.heap p = some tm → tm.index ≠ index

theorem Dead.constructed {index : Nat} (h : u.Dead index) (hgood : u.Good) {p : Nat}
    (hfree : u.Free p) (expiration : Timestamp) (brepeat compute : Bool) (interval : Option Nat) :
    (u.constructed p expiration brepeat compute interval).Dead index := by
  have hother : ∀ p', p' ≠ p → (u.constructed p expiration brepeat compute interval).queue.heap p' =
      u.queue.heap p' := fun p' hne => TimerQueue.heap_setTimer_of_ne u.queue hne _
  have hlive : ∀ p' tm, u.queue.heap p' = some tm → p' ≠ p := by
    rintro p' tm htm rfl
    rw [hfree.2.2] at htm
    cases htm
  refine ⟨Nat.lt_succ_of_lt h.used, ?_, ?_⟩
  · rintro ⟨e, he, tm, htm, heq⟩
    rcases hgood.consistent.entry e he with ⟨tm', htm', -⟩
    rw [hother _ (hlive _ _ htm')] at htm
    exact h.unqueued ⟨e, he, tm, htm, heq⟩
  · intro p' hp' tm htm
    rcases List.mem_cons.mp hp' with rfl | hp'
    · rcases Option.some.inj ((TimerQueue.heap_setTimer_self u.queue p' _).symm.trans htm) with rfl
      exact (Nat.ne_of_lt h.used).symm
    · rcases (hgood.pending p' hp').1 with ⟨tm', htm'⟩
      rw [hother _ (hlive _ _ htm')] at htm
      exact h.unadded p' hp' tm htm

theorem Dead.addTimer {index : Nat} (h : u.Dead index) {p : Nat} {clock : Clock}
    (hpending : p ∈ u.pending) (hmoves : u.Moves (.addTimer p clock) out u') : u'.Dead index := by
  cases hmoves with
  | @addTimer _ _ _ tm q htm hvalid hout hq =>
      obtain ⟨hheap, hnum, hlists⟩ : q.heap = u.queue.heap ∧ q.sIndexNum = u.queue.sIndexNum ∧
          q.timerLists = u.queue.timerLists.insert ⟨tm.expiration, p⟩ := by
        rcases hq with ⟨rfl, -⟩ | ⟨rfl, -⟩ <;> simp [TimerQueue.withEntry]
      refine ⟨by rw [hnum]; exact h.used, ?_, fun p' hp' tm' htm' => ?_⟩
      · rintro ⟨e, he, tm', htm', heq⟩
        rw [hlists] at he
        rw [hheap] at htm'
        rcases OrderedSet.mem_insert.mp he with rfl | he
        · exact h.unadded p hpending tm' htm' heq
        · exact h.unqueued ⟨e, he, tm', htm', heq⟩
      · rw [hheap] at htm'
        exact h.unadded p' (List.mem_of_mem_erase hp') tm' htm'

/-- An index that is dead stays so. -/
theorem Dead.moves {index : Nat} (h : u.Dead index) (hgood : u.Good) (ha : u.AddsOnce a)
    (hmoves : u.Moves a out u') : u'.Dead index := by
  cases hmoves with
  | newTimer hfree => exact h.constructed hgood hfree ..
  | addTimer htm hvalid hout hq => exact h.addTimer ha (.addTimer htm hvalid hout hq)
  | addTimerAt hfree hvalid hadd =>
      exact (h.constructed hgood hfree ..).addTimer (List.mem_cons_self ..) hadd
  | delNothing => exact h
  | @delTimer _ id clock e tm hid he heq htm =>
      refine ⟨by simpa [TimerQueue.setTimer] using h.used, ?_, fun p hp tm' htm' => ?_⟩
      · rintro ⟨e', he', tm', htm', hindex⟩
        rw [TimerQueue.timerLists_rearm] at he'
        rw [TimerQueue.heap_rearm] at htm'
        exact h.unqueued
          ⟨e', (OrderedSet.mem_erase.mp he').2, tm', (heap_of_setTimer_none htm').2, hindex⟩
      · rw [TimerQueue.heap_rearm] at htm'
        exact h.unadded p hp tm' (heap_of_setTimer_none htm').2
  | eventIdle =>
      refine ⟨by simpa using h.used, ?_, by simpa using h.unadded⟩
      rw [TimerQueue.Queued, TimerQueue.timerLists_readTimerfd, TimerQueue.heap_readTimerfd]
      exact h.unqueued
  | @eventFires _ evtime expired restarts clock q hsome hq hcons =>
      refine ⟨?_, ?_, ?_⟩
      · rw [TimerQueue.sIndexNum_rearm, hq.sIndexNum_eq, TimerQueue.withoutDue,
          TimerQueue.sIndexNum_readTimerfd]
        exact h.used
      · rintro ⟨x, hx, tm, htm, heq⟩
        rw [TimerQueue.timerLists_rearm] at hx
        rw [TimerQueue.heap_rearm] at htm
        rcases heap_of_event hgood hq htm with ⟨tm', htm', hindex⟩
        rcases address_of_event hgood hq hx with ⟨e, he, hsecond⟩
        exact h.unqueued ⟨e, he, tm', by rw [hsecond, htm'], hindex.trans heq⟩
      · intro p hp tm htm
        rw [TimerQueue.heap_rearm] at htm
        rcases heap_of_event hgood hq htm with ⟨tm', htm', hindex⟩
        exact hindex ▸ h.unadded p hp tm' htm'

/-- A dead timer is not run. -/
theorem Dead.run_notMem {index : Nat} (h : u.Dead index) (hgood : u.Good)
    (hmoves : u.Moves a out u') (p : Nat) : .run p index ∉ out := by
  cases hmoves with
  | newTimer | addTimer | addTimerAt | delNothing | eventIdle => exact List.not_mem_nil
  | delTimer => simp
  | eventFires hsome hq hcons =>
      intro hmem
      rcases TimerQueue.mem_runs.mp hmem with ⟨e, he, tm, htm, heq⟩
      cases heq
      exact h.unqueued ⟨e, ((TimerQueue.mem_due hgood.consistent _ e).mp he).1, tm, htm, rfl⟩

/-- Every timer on the heap was there before, unless its index is new. -/
theorem heap_of_moves (hgood : u.Good) (hmoves : u.Moves a out u') {p : Nat} {tm : Timer}
    (htm : u'.queue.heap p = some tm) (hold : tm.index < u.queue.sIndexNum) :
    ∃ tm', u.queue.heap p = some tm' ∧ tm'.index = tm.index := by
  have hnew : ∀ {p₁ : Nat} {expiration : Timestamp} {brepeat compute : Bool} {interval : Option Nat},
      (u.queue.newTimer p₁ expiration brepeat compute interval).heap p = some tm →
      ∃ tm', u.queue.heap p = some tm' ∧ tm'.index = tm.index := by
    intro p₁ expiration brepeat compute interval htm
    by_cases hpp : p = p₁
    · subst hpp
      rcases Option.some.inj ((TimerQueue.heap_setTimer_self u.queue p _).symm.trans htm) with rfl
      exact absurd hold (Nat.lt_irrefl _)
    · exact ⟨tm, (TimerQueue.heap_setTimer_of_ne u.queue hpp _).symm.trans htm, rfl⟩
  have hadd : ∀ {q q' : TimerQueue} {tm₁ : Timer} {p₁ : Nat} {clock : Clock},
      (q' = q.withEntry ⟨tm₁.expiration, p₁⟩ ∧ ¬(∀ e ∈ q.timerLists, tm₁.expiration < e.first) ∨
        q' = (q.withEntry ⟨tm₁.expiration, p₁⟩).resetTimerFd tm₁.expiration clock ∧
          ∀ e ∈ q.timerLists, tm₁.expiration < e.first) → q'.heap = q.heap := by
    rintro q q' tm₁ p₁ clock (⟨rfl, -⟩ | ⟨rfl, -⟩)
    · rfl
    · exact TimerQueue.heap_resetTimerFd ..
  cases hmoves with
  | newTimer => exact hnew htm
  | addTimer _ _ _ hq =>
      rw [hadd hq] at htm
      exact ⟨tm, htm, rfl⟩
  | addTimerAt _ _ hmoves =>
      cases hmoves with
      | addTimer _ _ _ hq =>
          rw [hadd hq] at htm
          exact hnew htm
  | delNothing => exact ⟨tm, htm, rfl⟩
  | delTimer =>
      rw [TimerQueue.heap_rearm] at htm
      exact ⟨tm, (heap_of_setTimer_none htm).2, rfl⟩
  | eventIdle =>
      rw [TimerQueue.heap_readTimerfd] at htm
      exact ⟨tm, htm, rfl⟩
  | eventFires _ hq =>
      rw [TimerQueue.heap_rearm] at htm
      exact heap_of_event hgood hq htm

/-- A cancellation leaves no timer with an index for which the id was returned. -/
theorem dead_of_cancelled (hgood : u.Good) {id : TimerId} {clock : Clock}
    (hmoves : u.Moves (.delTimerInLoop id clock) out u') {index : Nat}
    (hid : (id, index) ∈ u.issued) : u'.Dead index := by
  rcases hgood.issued id index hid with ⟨hused, -, hleads⟩
  cases hmoves with
  | delNothing _ hout =>
      refine ⟨hused, ?_, hgood.apart id index hid⟩
      rintro ⟨e, he, tm, htm, heq⟩
      exact hout e he (hleads _ tm htm heq)
  | @delTimer _ _ _ e tm _ he heq htm =>
      refine ⟨by rwa [TimerQueue.sIndexNum_rearm], ?_, fun p hp tm' htm' => ?_⟩
      · rintro ⟨e', he', tm', htm', hindex⟩
        rw [TimerQueue.heap_rearm] at htm'
        rcases heap_of_setTimer_none htm' with ⟨hne, hold⟩
        exact hne ((hleads _ tm' hold hindex).trans heq.symm)
      · rw [TimerQueue.heap_rearm] at htm'
        exact hgood.apart id index hid p hp tm' (heap_of_setTimer_none htm').2

/-- Nor one with the index of the timer that it deletes. -/
theorem dead_of_deleted (hgood : u.Good) {id : TimerId} {clock : Clock}
    (hmoves : u.Moves (.delTimerInLoop id clock) out u') {e : TimerEntity}
    (he : e ∈ u.queue.timerLists) (heq : e.second = id.tm) {tm : Timer}
    (htm : u.queue.heap e.second = some tm) : u'.Dead tm.index := by
  have hcons := hgood.consistent
  cases hmoves with
  | delNothing _ hout => exact absurd heq (hout e he)
  | @delTimer _ _ _ e' tm' _ he' heq' htm' =>
      rcases hcons.entry_unique he he' (heq.trans heq'.symm) with rfl
      have hother : ∀ p tm', (u.queue.setTimer e.second none).heap p = some tm' →
          tm'.index ≠ tm.index := by
        intro p tm' htm' hindex
        rcases heap_of_setTimer_none htm' with ⟨hne, hold⟩
        exact hne (hcons.index _ _ tm' tm hold htm hindex)
      refine ⟨?_, ?_, ?_⟩
      · rw [TimerQueue.sIndexNum_rearm]
        exact (hcons.address _ tm htm).2.2
      · rintro ⟨x, hx, tm₁, htm₁, hindex⟩
        rw [TimerQueue.heap_rearm] at htm₁
        exact hother _ tm₁ htm₁ hindex
      · intro p hp tm₁ htm₁
        rw [TimerQueue.heap_rearm] at htm₁
        exact hother _ tm₁ htm₁

end TimerUse

/-! ## The constructor -/

namespace TimerQueue

/-- The queue that the constructor leaves. -/
def constructed (sIndexNum : Nat) (bsetup : Bool) (sentinel : Nat) (t0 : Timestamp) (clock : Clock) :
    TimerQueue :=
  ((newTimer ⟨fun _ => none, sIndexNum, bsetup, .disarmed, .empty⟩ sentinel (t0.addSeconds csMaxTimer)
    false false none).withEntry ⟨t0.addSeconds csMaxTimer, sentinel⟩).resetTimerFd
      (t0.addSeconds csMaxTimer) clock

theorem valid_csMaxTimer {t0 : Timestamp} (ht0 : 0 ≤ t0) : (t0.addSeconds csMaxTimer).valid :=
  lt_of_lt_of_le (show (0 : Int) < csMaxTimer by decide) (Int.le_add_of_nonneg_left ht0)

theorem new_eq (sIndexNum : Nat) (bsetup : Bool) {sentinel : Nat} (hpos : 0 < sentinel)
    {t0 : Timestamp} (ht0 : 0 ≤ t0) (clock : Clock) :
    new sIndexNum bsetup sentinel t0 clock =
      pure (constructed sIndexNum bsetup sentinel t0 clock) := by
  have hvalid := valid_csMaxTimer ht0
  have htm := heap_setTimer_self ⟨fun _ => none, sIndexNum, bsetup, .disarmed, .empty⟩ sentinel
    (some ⟨sIndexNum, t0.addSeconds csMaxTimer, false, false, none⟩)
  obtain ⟨q, hq, hcases⟩ := addTimer_valid (q := newTimer
    ⟨fun _ => none, sIndexNum, bsetup, .disarmed, .empty⟩ sentinel _ _ _ _) hpos htm hvalid clock
  obtain ⟨rfl, -⟩ := hcases.resolve_left fun h => h.2 fun e he => absurd he OrderedSet.mem_empty
  rw [new, addTimerAt_eq hpos hvalid, hq, pure_bind]
  rfl

theorem mem_constructed (sIndexNum : Nat) (bsetup : Bool) (sentinel : Nat) (t0 : Timestamp)
    (clock : Clock) (e : TimerEntity) :
    e ∈ (constructed sIndexNum bsetup sentinel t0 clock).timerLists ↔
      e = ⟨t0.addSeconds csMaxTimer, sentinel⟩ := by
  rw [constructed, timerLists_resetTimerFd]
  exact OrderedSet.mem_insert.trans (or_iff_left OrderedSet.mem_empty)

end TimerQueue

namespace TimerUse

/-- A program whose queue has just been constructed. -/
def start (q : TimerQueue) : TimerUse := ⟨q, [], []⟩

theorem good_new (sIndexNum : Nat) (bsetup : Bool) {sentinel : Nat} (hpos : 0 < sentinel)
    (hlt : sentinel < UINTPTR_MAX) {t0 : Timestamp} (ht0 : 0 ≤ t0) (clock : Clock) :
    (start (TimerQueue.constructed sIndexNum bsetup sentinel t0 clock)).Good := by
  have hempty : TimerQueue.Consistent ⟨fun _ => none, sIndexNum, bsetup, .disarmed, .empty⟩ :=
    ⟨by simp, by simp, by simp, by simp⟩
  have hnew := hempty.newTimer hpos hlt rfl (t0.addSeconds TimerQueue.csMaxTimer) false false none
  have hentry := hnew.insertEntry (TimerQueue.heap_setTimer_self _ sentinel _)
    (TimerQueue.valid_csMaxTimer ht0)
  exact ⟨hentry.resetTimerFd .., List.nodup_nil, by simp [start], by simp [start], by simp [start]⟩

end TimerUse

end WebsocketCpp
