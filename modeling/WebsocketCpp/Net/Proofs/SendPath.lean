import Mathlib.Data.List.Induction
import WebsocketCpp.Net.NetConnection

/-!
# What the send path loses

`sendInReactor` and `handleWrite` (`net/NetConnection.cpp:67-91, 159-216`). `remain` stays 0 when
the write buffer is not empty and when the kernel refuses the write, so that the data of these
calls is dropped; `nothingLost_iff` says that nothing else ever is.
-/

namespace WebsocketCpp

namespace NetConnection

/-- The bytes the kernel has taken, in order. -/
def acceptedBytes (events : List SendEvent) : List UInt8 :=
  events.flatMap fun
    | .accepted bytes => bytes
    | .writeComplete => []

/-- The data a step adds to the stream. -/
def SendStep.data : SendStep → List UInt8
  | .sendInReactor data _ => data
  | .handleWrite _ => []

/-- The data of all `sendInReactor` calls. -/
def sentData (steps : List SendStep) : List UInt8 := steps.flatMap SendStep.data

/-- After every step of the run, what the kernel has taken followed by the write buffer is the
data sent so far. -/
def NothingLost (c : NetConnection) (steps : List SendStep) : Prop :=
  ∀ before, before <+: steps → ∀ c', (runSend c before).result = .ok c' →
    acceptedBytes (runSend c before).out ++ c'.writeBuffer = sentData before

/-- The step is no `sendInReactor` call with data that finds the write buffer in use or has its
write refused. -/
def SendStep.Kept (c : NetConnection) : SendStep → Prop
  | .sendInReactor data answer => data = [] ∨ (c.writeBuffer = [] ∧ ∃ n, answer = .count n)
  | .handleWrite _ => True

@[simp] theorem acceptedBytes_append (es es' : List SendEvent) :
    acceptedBytes (es ++ es') = acceptedBytes es ++ acceptedBytes es' := List.flatMap_append

theorem sentData_append (before : List SendStep) (step : SendStep) :
    sentData (before ++ [step]) = sentData before ++ step.data := by
  simp [sentData]

/-- The callback returns and takes nothing. -/
theorem writeComplete_spec (c : NetConnection) :
    ∃ events, c.writeComplete = ⟨events, .ok ()⟩ ∧ acceptedBytes events = [] := by
  unfold writeComplete
  split
  · exact ⟨[.writeComplete], rfl, rfl⟩
  · exact ⟨[], rfl, rfl⟩

/-! ## Single steps -/

/-- The attempt to write at once, answered with a count. -/
theorem writeNow_count {c : NetConnection} (data : List UInt8) (n : Nat)
    (hempty : c.writeBuffer = []) :
    ∃ events, c.writeNow data (.count n) = ⟨events, .ok (false, n, data.length - n)⟩ ∧
      acceptedBytes events = data.take n := by
  have hcond : c.writeBuffer.isEmpty = true := by rw [hempty]; rfl
  by_cases hremain : data.length - n = 0
  · obtain ⟨events, hevents, hnone⟩ := c.writeComplete_spec
    refine ⟨.accepted (data.take n) :: (events ++ []), ?_, ?_⟩
    · rw [writeNow, if_pos hcond]
      dsimp only
      rw [if_pos hremain, hevents, Traced.mk_bind, Traced.emit_bind]
      rfl
    · rw [List.append_nil, acceptedBytes, List.flatMap_cons, ← acceptedBytes, hnone,
        List.append_nil]
  · refine ⟨[.accepted (data.take n)], ?_, ?_⟩
    · rw [writeNow, if_pos hcond]
      dsimp only
      rw [if_neg hremain]
      rfl
    · exact List.append_nil _

/-- No attempt, or one that is refused. -/
theorem writeNow_none {c : NetConnection} (data : List UInt8) {answer : WriteAnswer}
    (h : c.writeBuffer ≠ [] ∨ ∃ errno, answer = .failed errno) :
    ∃ bret, c.writeNow data answer = pure (bret, 0, 0) := by
  by_cases hempty : c.writeBuffer = []
  · obtain ⟨errno, rfl⟩ := h.resolve_left fun hne => hne hempty
    have hcond : c.writeBuffer.isEmpty = true := by rw [hempty]; rfl
    rw [writeNow, if_pos hcond]
    exact ⟨_, rfl⟩
  · have hcond : ¬c.writeBuffer.isEmpty = true := by simpa using hempty
    rw [writeNow.eq_def, if_neg hcond]
    exact ⟨_, rfl⟩

/-- What the kernel does not take of a write to an idle connection is buffered. -/
theorem sendInReactor_count {c : NetConnection} (data : List UInt8) (n : Nat)
    (hstate : c.state ≠ .eDisconnected) (hempty : c.writeBuffer = []) :
    ∃ events c', c.sendInReactor data (.count n) = ⟨events, .ok c'⟩ ∧ c'.state = c.state ∧
      acceptedBytes events ++ c'.writeBuffer = data := by
  obtain ⟨events, hnow, htaken⟩ := writeNow_count data n hempty
  rw [sendInReactor, if_neg hstate, hnow, Traced.mk_bind]
  dsimp only
  by_cases hremain : 0 < data.length - n
  · have hrest : (data.drop n).take (data.length - n) = data.drop n :=
      List.take_of_length_le (Nat.le_of_eq (List.length_drop ..))
    rw [if_pos ⟨rfl, hremain⟩]
    refine ⟨_, _, rfl, rfl, ?_⟩
    dsimp only
    rw [Traced.out_pure, List.append_nil, htaken, hempty, List.nil_append, hrest,
      List.take_append_drop]
  · rw [if_neg fun h => hremain h.2]
    refine ⟨_, _, rfl, rfl, ?_⟩
    rw [Traced.out_pure, List.append_nil, htaken, hempty, List.append_nil,
      List.take_of_length_le (by omega)]

/-- Otherwise the call leaves everything as it was. -/
theorem sendInReactor_dropped {c : NetConnection} (data : List UInt8) {answer : WriteAnswer}
    (h : c.writeBuffer ≠ [] ∨ ∃ errno, answer = .failed errno) :
    c.sendInReactor data answer = pure c := by
  obtain ⟨bret, hbret⟩ := writeNow_none data h
  rw [sendInReactor, hbret, pure_bind]
  simp

theorem handleWrite_spec {c c' : NetConnection} {answer : WriteAnswer}
    (h : (c.handleWrite answer).result = .ok c') :
    c'.state = c.state ∧
      acceptedBytes (c.handleWrite answer).out ++ c'.writeBuffer = c.writeBuffer := by
  cases answer with
  | failed errno => cases h
  | count n =>
      by_cases hpos : 0 < n
      case neg =>
        rw [handleWrite, if_neg hpos] at h
        cases h
      by_cases hlen : n ≤ c.writeBuffer.length
      case neg =>
        rw [handleWrite, if_pos hpos, Traced.require_false hlen] at h
        cases h
      rw [handleWrite, if_pos hpos, Traced.require_true hlen, pure_bind, Traced.emit_bind] at h ⊢
      dsimp only at h ⊢
      by_cases hrest : (c.writeBuffer.drop n).isEmpty
      · obtain ⟨events, hevents, hnone⟩ := writeComplete_spec
          { c with writeBuffer := c.writeBuffer.drop n, isWriteable := false }
        rw [if_pos hrest, hevents, Traced.mk_bind] at h ⊢
        cases h
        refine ⟨rfl, ?_⟩
        rw [Traced.out_pure, List.append_nil, acceptedBytes, List.flatMap_cons, ← acceptedBytes,
          hnone, List.append_nil]
        exact List.take_append_drop n c.writeBuffer
      · rw [if_neg hrest] at h ⊢
        cases h
        refine ⟨rfl, ?_⟩
        rw [Traced.out_pure, acceptedBytes, List.flatMap_singleton]
        exact List.take_append_drop n c.writeBuffer

/-- A step moves the data it is given to the kernel or to the write buffer exactly when it is
kept. -/
theorem step_spec {c c' : NetConnection} {step : SendStep} (hstate : c.state = .eConnected)
    (h : (step.run c).result = .ok c') :
    c'.state = .eConnected ∧
      (acceptedBytes (step.run c).out ++ c'.writeBuffer = c.writeBuffer ++ step.data ↔
        step.Kept c) := by
  have hne : c.state ≠ .eDisconnected := by rw [hstate]; decide
  cases step with
  | handleWrite answer =>
      obtain ⟨hs, hbytes⟩ := handleWrite_spec h
      refine ⟨hs.trans hstate, ?_⟩
      simp [SendStep.run, SendStep.data, SendStep.Kept, hbytes]
  | sendInReactor data answer =>
      by_cases hdrop : c.writeBuffer ≠ [] ∨ ∃ errno, answer = .failed errno
      · -- nothing happens, so that only an empty `data` is kept
        have hrun := sendInReactor_dropped data hdrop
        rw [SendStep.run, hrun] at h ⊢
        cases h
        refine ⟨hstate, ?_⟩
        have hnot : ¬(c.writeBuffer = [] ∧ ∃ n, answer = .count n) := by
          rintro ⟨hempty, n, rfl⟩
          rcases hdrop with hbusy | ⟨errno, herrno⟩
          · exact hbusy hempty
          · cases herrno
        simp [SendStep.data, SendStep.Kept, hnot, acceptedBytes]
      · rw [not_or, not_not] at hdrop
        obtain ⟨hempty, hanswer⟩ := hdrop
        cases answer with
        | failed errno => exact absurd ⟨errno, rfl⟩ hanswer
        | count n =>
            obtain ⟨events, c1, hrun, hs, hbytes⟩ := sendInReactor_count data n hne hempty
            rw [SendStep.run, hrun] at h ⊢
            cases h
            refine ⟨hs.trans hstate, iff_of_true ?_ (.inr ⟨hempty, n, rfl⟩)⟩
            rw [hbytes, hempty]
            rfl

/-! ## Runs -/

theorem runSend_append (c : NetConnection) (before : List SendStep) (step : SendStep) :
    runSend c (before ++ [step]) = runSend c before >>= step.run := by
  rw [runSend, List.foldlM_append]
  congr 1
  funext c'
  exact bind_pure _

/-- A connected connection stays connected. -/
theorem state_runSend {c c' : NetConnection} (hstate : c.state = .eConnected)
    (steps : List SendStep) (h : (runSend c steps).result = .ok c') : c'.state = .eConnected := by
  induction steps generalizing c with
  | nil =>
      cases h
      exact hstate
  | cons step steps ih =>
      obtain ⟨c1, hc1, hrest⟩ := Traced.result_bind h
      exact ih (step_spec hstate hc1).1 hrest

/-- A step that fails is a `handleWrite`. -/
theorem kept_of_error {c : NetConnection} {step : SendStep} {e : Fault}
    (h : (step.run c).result = .error e) : step.Kept c := by
  cases step with
  | handleWrite answer => trivial
  | sendInReactor data answer =>
      cases answer with
      | failed errno =>
          rw [SendStep.run, sendInReactor_dropped data (.inr ⟨errno, rfl⟩)] at h
          cases h
      | count n =>
          by_cases hempty : c.writeBuffer = []
          · exact .inr ⟨hempty, n, rfl⟩
          · rw [SendStep.run, sendInReactor_dropped data (.inl hempty)] at h
            cases h

/-- After one more step the balance holds exactly if the step is kept. -/
theorem balance_append {c c1 c2 : NetConnection} {before : List SendStep} {step : SendStep}
    (hstate : c1.state = .eConnected) (hc1 : (runSend c before).result = .ok c1)
    (hbefore : acceptedBytes (runSend c before).out ++ c1.writeBuffer = sentData before)
    (hc2 : (step.run c1).result = .ok c2) :
    acceptedBytes (runSend c (before ++ [step])).out ++ c2.writeBuffer =
      sentData (before ++ [step]) ↔ step.Kept c1 := by
  rw [runSend_append, Traced.bind_of_ok hc1, acceptedBytes_append, sentData_append, ← hbefore,
    List.append_assoc, List.append_assoc, List.append_cancel_left_eq]
  exact (step_spec hstate hc2).2

/-- On a new connection nothing is lost exactly in the runs in which every `sendInReactor` call
with data finds the write buffer empty and is not refused by the kernel. -/
theorem nothingLost_iff (alloc : Alloc) (writeCompleteFunc : Bool) (steps : List SendStep) :
    NothingLost (connEstablished (.new alloc writeCompleteFunc)) steps ↔
      ∀ before step after c', steps = before ++ step :: after →
        (runSend (connEstablished (.new alloc writeCompleteFunc)) before).result = .ok c' →
        step.Kept c' := by
  have hstate : (connEstablished (.new alloc writeCompleteFunc)).state = .eConnected := rfl
  have hempty : (connEstablished (.new alloc writeCompleteFunc)).writeBuffer = [] := rfl
  generalize connEstablished (.new alloc writeCompleteFunc) = c at *
  constructor
  · rintro hlost before step after c1 rfl hc1
    have hstate1 := state_runSend hstate before hc1
    cases hc2 : (step.run c1).result with
    | error e => exact kept_of_error hc2
    | ok c2 =>
        have hbefore := hlost before (List.prefix_append ..) c1 hc1
        apply (balance_append hstate1 hc1 hbefore hc2).mp
        apply hlost (before ++ [step]) ⟨after, by simp⟩ c2
        rw [runSend_append, Traced.bind_of_ok hc1]
        exact hc2
  · intro hkept before
    induction before using List.reverseRecOn with
    | nil =>
        intro _ c' h
        cases h
        exact hempty
    | append_singleton before step ih =>
        rintro ⟨after, rfl⟩ c2 hrun
        rw [runSend_append] at hrun
        obtain ⟨c1, hc1, hc2⟩ := Traced.result_bind hrun
        have hbefore := ih ⟨step :: after, by simp⟩ c1 hc1
        apply (balance_append (state_runSend hstate before hc1) hc1 hbefore hc2).mpr
        exact hkept before step after c1 (by simp) hc1

/-- A partial write, and data sent before the rest of it is out. -/
def busySend : List SendStep :=
  [.sendInReactor [1, 2] (.count 1), .sendInReactor [3] (.count 1), .handleWrite (.count 1)]

/-- The second call's data is neither written nor buffered. -/
theorem not_nothingLost_busySend :
    ¬NothingLost (connEstablished (.new ⟨0, fun _ => 0⟩ false)) busySend := by
  intro h
  have hfirst := h [.sendInReactor [1, 2] (.count 1), .sendInReactor [3] (.count 1)]
    ⟨[.handleWrite (.count 1)], rfl⟩ _ rfl
  exact absurd hfirst (by decide)

end NetConnection

end WebsocketCpp
