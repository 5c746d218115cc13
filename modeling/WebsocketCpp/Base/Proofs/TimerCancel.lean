import WebsocketCpp.Base.Proofs.TimerRuns

/-!
# Which timer an id cancels

`delTimerInLoop` looks for the address in the id and ignores the index
(`base/TimerQueue.cpp:325-352`). It removes another timer than the id was returned for exactly when
that one is gone and a new timer in the queue has been given its address (`cancelsOnlyOwn_iff`).
-/

namespace WebsocketCpp

namespace TimerUse

/-- The state is as it was, but for `timerfd_`, without the timer with the index. -/
def WithoutTimer (u : TimerUse) (index : Nat) (u' : TimerUse) : Prop :=
  ∃ e ∈ u.queue.timerLists, ∃ tm, u.queue.heap e.second = some tm ∧ tm.index = index ∧
    u'.queue.timerLists = u.queue.timerLists.erase e ∧
    u'.queue.heap = Function.update u.queue.heap e.second none ∧
    u'.queue.sIndexNum = u.queue.sIndexNum ∧ u'.pending = u.pending ∧ u'.issued = u.issued

/-- No other timer in the queue has the address in the id. -/
def OwnAddress (u : TimerUse) (id : TimerId) (index : Nat) : Prop :=
  ∀ e ∈ u.queue.timerLists, e.second = id.tm → ∀ tm, u.queue.heap e.second = some tm →
    tm.index = index

end TimerUse

/-- A queue that is used as it should be. -/
def cancelMachine : Machine TimerUse TimerStep TimerEvent ObjectFault where
  step := TimerUse.step
  Allowed := TimerUse.Allowed

/-- Something holds of every cancellation in a run: of the state before it, its id, the index of the
timer that the id was returned for, and the state after it. -/
def EveryCancellation (P : TimerUse → TimerId → Nat → TimerUse → Prop) (u₀ : TimerUse)
    (steps : List TimerStep) : Prop :=
  ∀ before id clock, before ++ [.delTimerInLoop id clock] <+: steps → ∀ u u',
    (cancelMachine.run u₀ before).result = .ok u →
    (u.step (.delTimerInLoop id clock)).result = .ok u' →
    ∀ index, (id, index) ∈ u.issued → P u id index u'

/-- Every cancellation removes the timer that the id was returned for, or nothing. -/
def CancelsOnlyOwn (u₀ : TimerUse) (steps : List TimerStep) : Prop :=
  EveryCancellation (fun u _ index u' => u' = u ∨ u.WithoutTimer index u') u₀ steps

namespace TimerUse

variable {u u' : TimerUse} {out : List TimerEvent}

theorem good_invariant : cancelMachine.Invariant Good := by
  intro u a u' hgood ha hok
  obtain ⟨out, -, hmoves⟩ := moves_of_result hgood ha hok
  exact hgood.moves hmoves

/-- One cancellation. -/
theorem cancelsOwn_iff {id : TimerId} {clock : Clock}
    (hmoves : u.Moves (.delTimerInLoop id clock) out u') (index : Nat) :
    u' = u ∨ u.WithoutTimer index u' ↔ u.OwnAddress id index := by
  cases hmoves with
  | delNothing _ hout =>
      exact iff_of_true (.inl rfl) fun e he heq => absurd heq (hout e he)
  | @delTimer _ _ _ e tm _ he heq htm =>
      have hgone : ({ u.queue.setTimer e.second none with
          timerLists := u.queue.timerLists.erase e }.rearm clock).heap e.second = none := by
        rw [TimerQueue.heap_rearm]
        exact TimerQueue.heap_setTimer_self ..
      constructor
      · rintro (hsame | ⟨e', -, tm', htm', hindex, -, hheap, -⟩)
        · have hheap := congrArg (fun u => u.queue.heap e.second) hsame
          rw [hgone, htm] at hheap
          cases hheap
        · -- only the address of the timer with the index has been freed
          have hee : e.second = e'.second := by
            by_contra hne
            have hkept := congrFun hheap e.second
            rw [Function.update_of_ne hne, hgone, htm] at hkept
            cases hkept
          rw [← hee, htm] at htm'
          obtain rfl := Option.some.inj htm'
          intro x hx hxid tm₁ htm₁
          rw [hxid, ← heq, htm] at htm₁
          obtain rfl := Option.some.inj htm₁
          exact hindex
      · intro hown
        right
        refine ⟨e, he, tm, htm, hown e he heq tm htm, ?_, ?_, ?_, rfl, rfl⟩
        · exact TimerQueue.timerLists_rearm ..
        · exact TimerQueue.heap_rearm ..
        · exact TimerQueue.sIndexNum_rearm ..

end TimerUse

/-- In every run, all cancellations remove their own timers or nothing exactly if none of them finds
another timer in the queue at its address. -/
theorem cancelsOnlyOwn_iff {sentinel : Nat} (hpos : 0 < sentinel) (hlt : sentinel < UINTPTR_MAX)
    {t0 : Timestamp} (ht0 : 0 ≤ t0) (sIndexNum : Nat) (bsetup : Bool) (clock : Clock) :
    ∃ q, TimerQueue.new sIndexNum bsetup sentinel t0 clock = pure q ∧
      ∀ steps, cancelMachine.Legal (.start q) steps →
        (CancelsOnlyOwn (.start q) steps ↔
          EveryCancellation (fun u id index _ => u.OwnAddress id index) (.start q) steps) := by
  refine ⟨_, TimerQueue.new_eq sIndexNum bsetup hpos ht0 clock, ?_⟩
  intro steps hlegal
  have hnew := TimerUse.good_new sIndexNum bsetup hpos hlt ht0 clock
  have hone : ∀ before id clk, before ++ [.delTimerInLoop id clk] <+: steps → ∀ u u',
      (cancelMachine.run (.start (TimerQueue.constructed sIndexNum bsetup sentinel t0 clock))
        before).result = .ok u →
      (u.step (.delTimerInLoop id clk)).result = .ok u' → ∀ index,
        (u' = u ∨ u.WithoutTimer index u' ↔ u.OwnAddress id index) := by
    intro before id clk hprefix u u' hu hu' index
    obtain ⟨hbefore, hallowed⟩ := Machine.allowed_of_isPrefix hlegal hprefix hu
    have hgood := TimerUse.good_invariant.run hnew hbefore hu
    obtain ⟨out, -, hmoves⟩ := TimerUse.moves_of_result hgood
      (show u.Allowed (.delTimerInLoop id clk) from hallowed) hu'
    exact TimerUse.cancelsOwn_iff hmoves index
  constructor
  · intro h before id clk hprefix u u' hu hu' index hid
    exact (hone before id clk hprefix u u' hu hu' index).mp (h before id clk hprefix u u' hu hu' index hid)
  · intro h before id clk hprefix u u' hu hu' index hid
    exact (hone before id clk hprefix u u' hu hu' index).mpr (h before id clk hprefix u u' hu hu' index hid)

/-- A timer is cancelled twice, and between the two its address is given to another timer. -/
def reusedAddress : List TimerStep :=
  [.addTimerAt 2 100 none false ⟨0, 10⟩, .delTimerInLoop (.new 1 2) ⟨0, 10⟩,
    .addTimerAt 2 200 none false ⟨0, 10⟩, .delTimerInLoop (.new 1 2) ⟨0, 10⟩]

theorem legal_reusedAddress :
    cancelMachine.Legal (.start (TimerQueue.constructed 0 true 1 10 ⟨0, 10⟩)) reusedAddress := by
  refine Machine.legal_cons ⟨⟨by decide, by decide, rfl⟩, by decide⟩ rfl ?_
  refine Machine.legal_cons (.inr ⟨1, List.mem_cons_self ..⟩) rfl ?_
  refine Machine.legal_cons ⟨⟨by decide, by decide, rfl⟩, by decide⟩ rfl ?_
  exact Machine.legal_cons (.inr ⟨1, List.mem_cons_of_mem _ (List.mem_cons_self ..)⟩) rfl trivial

theorem cancelsOnlyOwn_iff_reusedAddress :
    ∃ q, TimerQueue.new 0 true 1 10 ⟨0, 10⟩ = pure q ∧
      (CancelsOnlyOwn (.start q) reusedAddress ↔
        EveryCancellation (fun u id index _ => u.OwnAddress id index) (.start q) reusedAddress) := by
  obtain ⟨q, hq, hruns⟩ := cancelsOnlyOwn_iff (show 0 < 1 by decide) (by decide)
    (show (0 : Timestamp) ≤ 10 by decide) 0 true ⟨0, 10⟩
  refine ⟨q, hq, hruns reusedAddress ?_⟩
  obtain rfl := Except.ok.inj (congrArg Traced.result hq)
  exact legal_reusedAddress

/-- The second cancellation removes the other timer. -/
theorem not_cancelsOnlyOwn_reusedAddress :
    ∃ q, TimerQueue.new 0 true 1 10 ⟨0, 10⟩ = pure q ∧
      cancelMachine.Legal (.start q) reusedAddress ∧ ¬CancelsOnlyOwn (.start q) reusedAddress := by
  refine ⟨_, rfl, legal_reusedAddress, ?_⟩
  intro h
  rcases h (reusedAddress.take 3) (.new 1 2) ⟨0, 10⟩ (List.prefix_refl _) _ _ rfl rfl 1
    (List.mem_cons_of_mem _ (List.mem_cons_self ..)) with hsame | ⟨e, -, tm, htm, hindex, -, hheap, -⟩
  · have hgone := congrArg (fun u => (u.queue.heap 2).isSome) hsame
    cases hgone
  · by_cases he : e.second = 2
    · rw [he] at htm
      obtain rfl := Option.some.inj htm
      cases hindex
    · have hgone := (congrFun hheap 2).trans (Function.update_of_ne (Ne.symm he) ..)
      cases hgone

end WebsocketCpp
