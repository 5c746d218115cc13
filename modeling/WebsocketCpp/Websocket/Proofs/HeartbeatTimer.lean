import WebsocketCpp.Base.Proofs.TimerFiring
import WebsocketCpp.Websocket.HeartbeatTiming
import WebsocketCpp.Websocket.Proofs.ClientSteps

/-!
# The timer of a heartbeat

A heartbeat that has been started once has one timer. `scheduled_eventRead`: an event runs it and sets it
again, or leaves it as it is.
-/

namespace WebsocketCpp

open TimerUse (entries_of_event heap_of_event entries_of_fired heap_of_fired heap_of_later)

namespace HeartbeatSender

variable {own : List Nat} {s : HeartbeatSender} {out : List TimerEvent}

theorem foldl_onTimer_of_none (h : ∀ p index, .run p index ∈ out → index ∉ own) :
    out.foldl (onTimer own) s = s := by
  induction out with
  | nil => rfl
  | cons e out ih =>
      have hrest := ih fun p index hmem => h p index (List.mem_cons_of_mem _ hmem)
      rw [List.foldl_cons]
      cases e with
      | run p index =>
          rw [onTimer, if_neg (h p index List.mem_cons_self)]
          exact hrest
      | deleted index => exact hrest

theorem foldl_onTimer_of_one (hnodup : out.Nodup) {p index : Nat} (hmem : .run p index ∈ out)
    (hindex : index ∈ own)
    (hone : ∀ p' index', .run p' index' ∈ out → index' ∈ own → p' = p ∧ index' = index) :
    out.foldl (onTimer own) s = s.fire := by
  obtain ⟨before, after, rfl⟩ := List.append_of_mem hmem
  have hother : ∀ p' index', .run p' index' ∈ before ∨ .run p' index' ∈ after → index' ∉ own := by
    intro p' index' hmem' hown
    obtain ⟨rfl, rfl⟩ := hone p' index' (by simp; tauto) hown
    obtain ⟨-, hafter, hdisjoint⟩ := List.nodup_append.mp hnodup
    rcases hmem' with hbefore | hmem'
    · exact hdisjoint _ hbefore _ List.mem_cons_self rfl
    · exact (List.nodup_cons.mp hafter).1 hmem'
  rw [List.foldl_append, foldl_onTimer_of_none fun p' index' h => hother p' index' (.inl h),
    List.foldl_cons, onTimer, if_pos hindex,
    foldl_onTimer_of_none fun p' index' h => hother p' index' (.inr h)]

end HeartbeatSender

namespace HeartbeatClient

variable {c : HeartbeatClient} {e : TimerEntity}

/-- The entry is the only one of the heartbeat, and its timer repeats as the algorithm says. -/
structure Scheduled (c : HeartbeatClient) (e : TimerEntity) : Prop where
  own : ∀ e', e' ∈ c.timers.queue.timerLists ∧ c.Own e' ↔ e' = e
  repeats : ∀ tm, c.timers.queue.heap e.second = some tm → tm.brepeat = true ∧ tm.compute = true

theorem Scheduled.mem (h : c.Scheduled e) : e ∈ c.timers.queue.timerLists ∧ c.Own e := (h.own e).mpr rfl

theorem fired_eq_none {out : List ClientEvent}
    (h : ∀ p index, .timer (.run p index) ∈ out → index ∉ c.own) : c.fired out = none := by
  rw [fired, List.findSome?_eq_none_iff]
  intro o ho
  split
  · rename_i p index
    exact if_neg (h p index ho)
  · rfl

theorem fired_eq_some {out : List ClientEvent} {p index : Nat} {tm : Timer}
    (hmem : .timer (.run p index) ∈ out) (hindex : index ∈ c.own)
    (htm : c.timers.queue.heap p = some tm)
    (hone : ∀ p' index', .timer (.run p' index') ∈ out → index' ∈ c.own → p' = p) :
    c.fired out = some tm.expiration := by
  cases hfired : c.fired out with
  | none =>
      have hnone := List.findSome?_eq_none_iff.mp hfired _ hmem
      simp [hindex, htm] at hnone
  | some t =>
      obtain ⟨o, ho, ht⟩ := List.exists_of_findSome?_eq_some hfired
      split at ht
      · rename_i p' index'
        split at ht
        · rename_i hown
          rw [hone p' index' ho hown, htm] at ht
          exact ht.symm
        · cases ht
      · cases ht

/-- Only the heap, the entries and the indices matter. -/
theorem Scheduled.congr (h : c.Scheduled e) {c' : HeartbeatClient}
    (hheap : c'.timers.queue.heap = c.timers.queue.heap)
    (hlists : c'.timers.queue.timerLists = c.timers.queue.timerLists) (hown : c'.own = c.own) :
    c'.Scheduled e where
  own e' := by
    rw [Own, hheap, hlists, hown]
    exact h.own e'
  repeats tm htm := h.repeats tm (by rwa [← hheap])

/-- The timer that `start` makes. -/
theorem scheduled_startTimer (hgood : c.timers.Good) {p : Nat} {expiration : Timestamp}
    (hfree : c.timers.Free p) {clock : Clock} {timers : TimerUse}
    (hadd : (c.timers.constructed p expiration true true (some 1000000)).Moves (.addTimer p clock) []
      timers) :
    ({ c with timers := timers, own := [c.timers.queue.sIndexNum] } : HeartbeatClient).Scheduled
      ⟨expiration, p⟩ := by
  cases hadd with
  | @addTimer _ _ _ tm q htm hvalid hout hq =>
      have hheap : q.heap = (c.timers.constructed p expiration true true (some 1000000)).queue.heap := by
        rcases hq with ⟨rfl, -⟩ | ⟨rfl, -⟩
        · rfl
        · exact TimerQueue.heap_resetTimerFd ..
      obtain rfl := Option.some.inj ((TimerQueue.heap_setTimer_self c.timers.queue p _).symm.trans htm)
      have hlists : q.timerLists = c.timers.queue.timerLists.insert ⟨expiration, p⟩ := by
        rcases hq with ⟨rfl, -⟩ | ⟨rfl, -⟩
        · rfl
        · exact TimerQueue.timerLists_resetTimerFd ..
      refine ⟨fun e' => ⟨?_, ?_⟩, ?_⟩
      · rintro ⟨he', tm', htm', hindex⟩
        rw [hlists] at he'
        apply (OrderedSet.mem_insert.mp he').resolve_right
        intro hold
        -- the timers that were there have smaller indices
        obtain ⟨tm₁, htm₁, -⟩ := hgood.consistent.entry e' hold
        have hne : e'.second ≠ p := fun heq => by
          rw [heq, hfree.2.2] at htm₁
          cases htm₁
        rw [hheap] at htm'
        have hold' := (TimerQueue.heap_setTimer_of_ne c.timers.queue hne _).symm.trans htm'
        have hlt := (hgood.consistent.address _ tm' hold').2.2
        rw [List.mem_singleton.mp hindex] at hlt
        exact absurd hlt (Nat.lt_irrefl _)
      · rintro rfl
        refine ⟨?_, _, (congrFun hheap p).trans htm, List.mem_singleton_self _⟩
        rw [hlists]
        exact OrderedSet.mem_insert.mpr (.inl rfl)
      · intro tm htm
        rw [hheap] at htm
        obtain rfl := Option.some.inj ((TimerQueue.heap_setTimer_self c.timers.queue p _).symm.trans htm)
        exact ⟨rfl, rfl⟩

/-- The entries of the heartbeat after an event have the address of the one before. -/
theorem Scheduled.second_eq (h : c.Scheduled e) (hgood : c.timers.Good) {evtime : Timestamp}
    {expired : Bool} {restarts : Nat → Restart} {q : TimerQueue}
    (hq : ((c.timers.queue.readTimerfd expired).withoutDue evtime).Restarted restarts
      (c.timers.queue.due evtime) q) {e' : TimerEntity} (he' : e' ∈ q.timerLists) {tm' : Timer}
    (htm' : q.heap e'.second = some tm') (hindex : tm'.index ∈ c.own) : e'.second = e.second := by
  obtain ⟨e₁, he₁, hsecond⟩ := TimerUse.address_of_event hgood hq he'
  obtain ⟨tm, htm, hsame⟩ := heap_of_event hgood hq htm'
  rw [← hsecond] at htm ⊢
  rw [(h.own e₁).mp ⟨he₁, tm, htm, by rwa [hsame]⟩]

/-- The timer of the heartbeat is the only one of its that an event can run. -/
theorem Scheduled.run_eq (h : c.Scheduled e) (hgood : c.timers.Good) {evtime : Timestamp} {p index : Nat}
    (hrun : .run p index ∈ c.timers.queue.runs (c.timers.queue.due evtime)) (hindex : index ∈ c.own) :
    p = e.second ∧ e.first ≤ evtime ∧ ∃ tm, c.timers.queue.heap e.second = some tm ∧ index = tm.index := by
  obtain ⟨e₁, he₁, tm, htm, heq⟩ := TimerQueue.mem_runs.mp hrun
  obtain ⟨rfl, rfl⟩ := TimerEvent.run.inj heq
  obtain ⟨hmem, hle⟩ := (TimerQueue.mem_due hgood.consistent evtime e₁).mp he₁
  obtain rfl := (h.own e₁).mp ⟨hmem, tm, htm, hindex⟩
  exact ⟨rfl, hle, tm, htm, rfl⟩

section Event

variable {evtime : Timestamp} {expired : Bool} {reads : Nat → HeartState × Timestamp} {clock : Clock}
  {q : TimerQueue}

/-- The timer is not due. -/
theorem Scheduled.later (h : c.Scheduled e) (hgood : c.timers.Good)
    (hq : ((c.timers.queue.readTimerfd expired).withoutDue evtime).Restarted (restarts reads)
      (c.timers.queue.due evtime) q) (hlt : evtime < e.first) :
    ({ c with timers := { c.timers with queue := q } } : HeartbeatClient).Scheduled e := by
  obtain ⟨hmem, tm, htm, hindex⟩ := h.mem
  have hheap := heap_of_later hgood hq hmem hlt
  refine ⟨fun e' => ⟨?_, ?_⟩, fun tm' htm' => h.repeats tm' (hheap.symm.trans htm')⟩
  · rintro ⟨he', tm', htm', hown'⟩
    have hsecond := h.second_eq hgood hq he' htm' hown'
    rcases (entries_of_event hgood hq e').mp he' with ⟨hold, -⟩ | ⟨e₁, he₁, _, _, _, _, rfl⟩
    · exact hgood.consistent.entry_unique hold hmem hsecond
    · obtain ⟨hold, hle⟩ := (TimerQueue.mem_due hgood.consistent evtime e₁).mp he₁
      rw [hgood.consistent.entry_unique hold hmem hsecond] at hle
      exact absurd hlt (not_lt.mpr hle)
  · rintro rfl
    exact ⟨(entries_of_event hgood hq e').mpr (.inl ⟨hmem, hlt⟩), tm, hheap.trans htm, hindex⟩

/-- The timer is due. -/
theorem Scheduled.fires (h : c.Scheduled e) (hgood : c.timers.Good) (hvalid : (reads e.second).2.valid)
    (hq : ((c.timers.queue.readTimerfd expired).withoutDue evtime).Restarted (restarts reads)
      (c.timers.queue.due evtime) q) (hle : e.first ≤ evtime) :
    ({ c with timers := { c.timers with queue := q } } : HeartbeatClient).Scheduled
      ⟨(reads e.second).1.nextTimestamp (reads e.second).2, e.second⟩ := by
  obtain ⟨hmem, tm, htm, hindex⟩ := h.mem
  obtain ⟨hrep, hcompute⟩ := h.repeats tm htm
  have hnext : (tm.restartTimer (restarts reads e.second)).expiration =
      (reads e.second).1.nextTimestamp (reads e.second).2 := Timer.restartTimer_of_compute hcompute _
  have hnextValid : (tm.restartTimer (restarts reads e.second)).expiration.valid := by
    rw [hnext]
    exact (reads e.second).1.valid_nextTimestamp hvalid
  have hheap := heap_of_fired hgood hq hmem hle htm hrep hnextValid
  have hentries := entries_of_fired hgood hq hmem hle htm hrep hnextValid
  rw [hnext] at hentries
  refine ⟨fun e' => ⟨?_, ?_⟩, ?_⟩
  · rintro ⟨he', tm', htm', hown'⟩
    exact (hentries e').mp ⟨he', h.second_eq hgood hq he' htm' hown'⟩
  · rintro rfl
    exact ⟨((hentries _).mpr rfl).1, _, hheap, by rwa [Timer.index_restartTimer]⟩
  · intro tm' htm'
    obtain rfl := Option.some.inj (hheap.symm.trans htm')
    exact ⟨by rwa [Timer.brepeat_restartTimer], by rwa [Timer.compute_restartTimer]⟩

/-- An event leaves the timer of the heartbeat as it is, or runs it once and sets it again. -/
theorem scheduled_eventRead (hgood : c.timers.Good) (h : c.Scheduled e)
    (hvalid : (reads e.second).2.valid) {out : List TimerEvent} {timers : TimerUse}
    (hmoves : c.timers.Moves (.eventRead evtime expired (restarts reads) clock) out timers) :
    (out.foldl (HeartbeatSender.onTimer c.own) c.sender = c.sender ∧ c.fired (out.map .timer) = none ∧
        ({ c with timers := timers } : HeartbeatClient).Scheduled e) ∨
      (e.first ≤ evtime ∧ out.foldl (HeartbeatSender.onTimer c.own) c.sender = c.sender.fire ∧
        c.fired (out.map .timer) = some e.first ∧
        ({ c with timers := timers } : HeartbeatClient).Scheduled
          ⟨(reads e.second).1.nextTimestamp (reads e.second).2, e.second⟩) := by
  cases hmoves with
  | eventIdle =>
      exact .inl ⟨rfl, fired_eq_none nofun, h.congr (TimerQueue.heap_readTimerfd ..)
        (TimerQueue.timerLists_readTimerfd ..) rfl⟩
  | @eventFires _ _ _ _ _ q _ hq _ =>
      have hmap : ∀ p index, ClientEvent.timer (.run p index) ∈
          (c.timers.queue.runs (c.timers.queue.due evtime)).map .timer →
          .run p index ∈ c.timers.queue.runs (c.timers.queue.due evtime) := by
        intro p index hmem
        obtain ⟨o, ho, heq⟩ := List.mem_map.mp hmem
        exact ClientEvent.timer.inj heq ▸ ho
      by_cases hle : e.first ≤ evtime
      · obtain ⟨hmem, tm, htm, hindex⟩ := h.mem
        have hdue := TimerQueue.mem_due hgood.consistent evtime
        have hrun : .run e.second tm.index ∈ c.timers.queue.runs (c.timers.queue.due evtime) :=
          TimerQueue.mem_runs.mpr ⟨e, (hdue e).mpr ⟨hmem, hle⟩, tm, htm, rfl⟩
        have hnodup := TimerQueue.nodup_runs hgood.consistent (fun e he => ((hdue e).mp he).1)
          (c.timers.queue.timerLists.nodup_below _)
        refine .inr ⟨hle, HeartbeatSender.foldl_onTimer_of_one hnodup hrun hindex ?_, ?_,
          (h.fires hgood hvalid hq hle).congr (TimerQueue.heap_rearm ..) (TimerQueue.timerLists_rearm ..)
            rfl⟩
        · intro p index hmem' hown
          obtain ⟨hp, -, tm', htm', rfl⟩ := h.run_eq hgood hmem' hown
          exact ⟨hp, by rw [Option.some.inj (htm'.symm.trans htm)]⟩
        · obtain ⟨tm', htm', hexp⟩ := hgood.consistent.entry e hmem
          rw [← hexp, Option.some.inj (htm'.symm.trans htm)]
          exact fired_eq_some (List.mem_map_of_mem hrun) hindex htm fun p index hmem' hown =>
            (h.run_eq hgood (hmap p index hmem') hown).1
      · have hnone : ∀ p index, .run p index ∈ c.timers.queue.runs (c.timers.queue.due evtime) →
            index ∉ c.own := fun p index hmem hown => hle (h.run_eq hgood hmem hown).2.1
        exact .inl ⟨HeartbeatSender.foldl_onTimer_of_none hnone,
          fired_eq_none fun p index hmem => hnone p index (hmap p index hmem),
          (h.later hgood hq (not_le.mp hle)).congr (TimerQueue.heap_rearm ..)
            (TimerQueue.timerLists_rearm ..) rfl⟩

end Event

end HeartbeatClient

end WebsocketCpp
