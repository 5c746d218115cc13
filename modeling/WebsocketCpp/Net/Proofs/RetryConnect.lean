import WebsocketCpp.Net.Connector

/-!
# Retrying

`retry` closes the socket and returns, before it would set a timer. `retriesFollow_iff`: a connector
always has an attempt or a timer under way exactly in the runs in which no attempt fails. The delays
that it would wait are in `delays_scheduleRetry`.
-/

namespace WebsocketCpp

/-- The delays of the timers that are set. -/
def retryDelays (out : List ConnectorEvent) : List Nat :=
  out.filterMap fun
    | .runDelay _ delayMs => some delayMs
    | _ => none

namespace ConnectorUse

/-- As long as no attempt has succeeded, one is in progress or a timer will make the next. -/
def Followed (u : ConnectorUse) : Prop :=
  u.connections = [] → u.connector.event ≠ none ∨ u.retryTimers ≠ []

/-- The attempt of the step does not fail, neither at once nor when it is decided. -/
def NoFailure (_ : ConnectorUse) : ConnectorStep → Prop
  | .start _ err | .retryTimer _ err => err.Pending
  | .handleWrite err => err = 0

end ConnectorUse

/-- Every failed attempt is followed by another, the delay of the k-th being 5 seconds doubled k - 1
times, up to 30 seconds. -/
def RetriesFollow (steps : List ConnectorStep) : Prop :=
  (∀ before, before <+: steps → before ≠ [] → ∀ u,
    (connectorMachine.run .new before).result = .ok u → u.Followed) ∧
  ∀ k delayMs, (retryDelays (connectorMachine.run .new steps).out)[k]? = some delayMs →
    delayMs = min (5000 * 2 ^ k) 30000

/-! ## The delays of the unreachable lines -/

namespace Connector

/-- The connector when the lines behind the `return` have been executed for some timers. -/
def schedule (c : Connector) (ids : List TimerId) : Connecting Connector :=
  ids.foldlM Connector.scheduleRetry c

theorem delays_schedule (c : Connector) (n : Nat) (hdelay : c.retryDelayMs = min (5000 * 2 ^ n) 30000)
    (ids : List TimerId) : retryDelays (c.schedule ids).out =
      (List.range' n ids.length).map fun k => min (5000 * 2 ^ k) 30000 := by
  induction ids generalizing c n with
  | nil => rfl
  | cons id ids ih =>
      have hnext : min (c.retryDelayMs * 2) csMaxRetryDelay = min (5000 * 2 ^ (n + 1)) 30000 := by
        rw [hdelay, csMaxRetryDelay, Nat.pow_succ]
        omega
      rw [schedule, List.foldlM_cons, scheduleRetry]
      change retryDelays (.runDelay id c.retryDelayMs ::
        (schedule { c with retryTimerId := id, retryDelayMs := _ } ids).out) = _
      rw [retryDelays, List.filterMap_cons, ← retryDelays, ih _ (n + 1) hnext, hdelay]
      rfl

/-- Without the `return` the k-th timer would wait as long as it should. -/
theorem delays_scheduleRetry (ids : List TimerId) : retryDelays (new.schedule ids).out =
    (List.range ids.length).map fun k => min (5000 * 2 ^ k) 30000 := by
  rw [delays_schedule new 0 rfl, List.range_eq_range']

end Connector

namespace ConnectorUse

variable {u u' : ConnectorUse}

/-! ## Runs -/

/-- What holds of every run: no timer is ever set, and after a success there is nothing under way. -/
structure Sound (u : ConnectorUse) : Prop where
  noTimer : u.connector.NoTimer
  noTimers : u.retryTimers = []
  fresh : u.started = false → u.connector.event = none ∧ u.connector.state = .eDisconnected
  done : u.connections ≠ [] → u.started = true ∧ u.connector.event = none

/-- What a step does. -/
structure Steps (u : ConnectorUse) (a : ConnectorStep) (out : List ConnectorEvent)
    (u' : ConnectorUse) : Prop where
  sound : u'.Sound
  noDelay : retryDelays out = []
  started : u'.started = true
  followed_iff : u'.Followed ↔ u.NoFailure a

theorem perform_eq {out out' : List ConnectorEvent} {u₁ : ConnectorUse}
    (h : out.foldlM onEvent u = ⟨out', .ok u₁⟩) (c : Connector) :
    u.perform ⟨out, .ok c⟩ = ⟨out', .ok { u₁ with connector := c }⟩ := by
  rw [perform, Traced.handle_ok h, Traced.mk_bind]
  exact congrArg (Traced.mk · _) (List.append_nil _)

theorem steps_start (h : u.Sound) (hstart : u.started = false) (sockfd : Int) (err : ConnectErrno) :
    ∃ out u', u.step (.start sockfd err) = ⟨out, .ok u'⟩ ∧ u.Steps (.start sockfd err) out u' := by
  obtain ⟨hevent, hstate⟩ := h.fresh hstart
  have hnone : u.connections = [] := by
    by_contra hne
    rw [(h.done hne).1] at hstart
    cases hstart
  -- an attempt that is not in progress leaves nothing behind
  have hfailed (hp : ¬err.Pending) {u' : ConnectorUse} (hc : u'.connector = u.connector)
      (ht : u'.retryTimers = []) (hl : u'.connections = []) :
      u'.Followed ↔ u.NoFailure (.start sockfd err) := by
    refine iff_of_false ?_ hp
    intro hf
    rcases hf hl with hne | hne
    · exact hne (hc ▸ hevent)
    · exact hne ht
  rw [step, Connector.startInLoop_eq h.noTimer hstate]
  by_cases hp : err.Pending
  · rw [if_pos hp, perform_eq rfl]
    refine ⟨_, _, rfl, ⟨Connector.noTimer_connectImpl h.noTimer sockfd, h.noTimers, Bool.noConfusion,
      fun hne => absurd hnone hne⟩, rfl, rfl, iff_of_true (fun _ => .inl ?_) hp⟩
    rw [Connector.connectImpl, hevent]
    exact Option.some_ne_none _
  · rw [if_neg hp]
    split
    · rw [perform_eq rfl]
      exact ⟨_, _, rfl, ⟨h.noTimer, h.noTimers, Bool.noConfusion, fun hne => absurd hnone hne⟩, rfl, rfl,
        hfailed hp rfl h.noTimers hnone⟩
    · rw [perform_eq rfl]
      exact ⟨_, _, rfl, ⟨h.noTimer, h.noTimers, Bool.noConfusion, fun hne => absurd hnone hne⟩, rfl, rfl,
        hfailed hp rfl h.noTimers hnone⟩

theorem steps_handleWrite (h : u.Sound) (hevent : u.connector.event ≠ none) (err : Nat) :
    ∃ out u', u.step (.handleWrite err) = ⟨out, .ok u'⟩ ∧ u.Steps (.handleWrite err) out u' := by
  obtain ⟨sockfd, hsockfd⟩ := Option.ne_none_iff_exists'.mp hevent
  have hnone : u.connections = [] := by
    by_contra hne
    exact hevent (h.done hne).2
  have hstarted : u.started = true := by
    cases hstart : u.started with
    | true => rfl
    | false => exact absurd (h.fresh hstart).1 hevent
  rw [step, Connector.handleWrite_eq h.noTimer hsockfd]
  by_cases herr : err = 0
  · rw [if_pos herr, perform_eq rfl]
    refine ⟨_, _, rfl, ⟨h.noTimer, h.noTimers, ?_, fun _ => ⟨hstarted, rfl⟩⟩, rfl, hstarted,
      iff_of_true ?_ herr⟩
    · intro hfalse
      exact absurd (hstarted.symm.trans hfalse) nofun
    · intro hnil
      cases hnil
  · rw [if_neg herr, perform_eq rfl]
    refine ⟨_, _, rfl, ⟨h.noTimer, h.noTimers, ?_, fun _ => ⟨hstarted, rfl⟩⟩, rfl, hstarted,
      iff_of_false ?_ herr⟩
    · intro hfalse
      exact absurd (hstarted.symm.trans hfalse) nofun
    · intro hf
      rcases hf hnone with hne | hne
      · exact hne rfl
      · exact hne h.noTimers

/-- After every step an attempt or a timer is under way exactly if the step's attempt has not failed. -/
theorem step_spec (h : u.Sound) {a : ConnectorStep} (ha : u.Allowed a) :
    ∃ out u', u.step a = ⟨out, .ok u'⟩ ∧ u.Steps a out u' := by
  cases a with
  | start sockfd err => exact steps_start h ha sockfd err
  | handleWrite err => exact steps_handleWrite h ha err
  | retryTimer => exact absurd h.noTimers ha

theorem sound_new : new.Sound := ⟨rfl, rfl, fun _ => ⟨rfl, rfl⟩, fun hne => absurd rfl hne⟩

theorem sound_invariant : connectorMachine.Invariant Sound := by
  intro u a u' h ha hok
  obtain ⟨out, u'', hstep, hsteps⟩ := step_spec h ha
  rw [show connectorMachine.step u a = _ from hstep] at hok
  exact Except.ok.inj hok ▸ hsteps.sound

theorem retryDelays_eq_nil (out : List ConnectorEvent) :
    retryDelays out = [] ↔ ∀ e ∈ out, ∀ id delayMs, e ≠ .runDelay id delayMs := by
  rw [retryDelays, List.filterMap_eq_nil_iff]
  apply forall₂_congr
  intro e _
  cases e <;> simp

/-- No timer is ever set. -/
theorem retryDelays_run {steps : List ConnectorStep} (hlegal : connectorMachine.Legal .new steps) :
    retryDelays (connectorMachine.run .new steps).out = [] := by
  rw [retryDelays_eq_nil]
  refine sound_invariant.forall_out ?_ sound_new hlegal
  intro u a h ha
  obtain ⟨out, u', hstep, hsteps⟩ := step_spec h ha
  rw [show connectorMachine.step u a = _ from hstep]
  exact (retryDelays_eq_nil out).mp hsteps.noDelay

end ConnectorUse

/-- Every failed attempt is followed by another exactly in the runs in which none fails. -/
theorem retriesFollow_iff {steps : List ConnectorStep} (hlegal : connectorMachine.Legal .new steps) :
    RetriesFollow steps ↔ (connectorMachine.restrict ConnectorUse.NoFailure).Legal .new steps := by
  rw [Machine.legal_restrict_iff]
  have hone : ∀ before a, before ++ [a] <+: steps → ∀ u,
      (connectorMachine.run .new before).result = .ok u → ∃ out u', u.Steps a out u' ∧
        (connectorMachine.run .new (before ++ [a])).result = .ok u' := by
    intro before a hpre u hu
    obtain ⟨hbefore, ha⟩ := Machine.allowed_of_isPrefix hlegal hpre hu
    obtain ⟨out, u', hstep, hsteps⟩ := ConnectorUse.step_spec
      (ConnectorUse.sound_invariant.run ConnectorUse.sound_new hbefore hu) ha
    refine ⟨out, u', hsteps, ?_⟩
    rw [Machine.run_append, Traced.bind_of_ok hu, Machine.run_singleton]
    exact congrArg Traced.result hstep
  constructor
  · intro h
    refine ⟨hlegal, ?_⟩
    intro before a hpre u hu
    obtain ⟨out, u', hsteps, hu'⟩ := hone before a hpre u hu
    exact hsteps.followed_iff.mp (h.1 _ hpre (by simp) u' hu')
  · rintro ⟨-, h⟩
    refine ⟨?_, ?_⟩
    · intro before hpre hne u' hu'
      obtain ⟨before, a, rfl⟩ : ∃ b a, before = b ++ [a] :=
        ⟨_, _, (List.dropLast_concat_getLast hne).symm⟩
      obtain ⟨u, hu, -⟩ := Machine.result_append hu'
      obtain ⟨out, u'', hsteps, hu''⟩ := hone before a hpre u hu
      rw [hu''] at hu'
      exact Except.ok.inj hu' ▸ hsteps.followed_iff.mpr (h before a hpre u hu)
    · intro k delayMs hk
      rw [ConnectorUse.retryDelays_run hlegal] at hk
      cases hk

/-- The server refuses the connection. -/
theorem not_retriesFollow_refused :
    connectorMachine.Legal .new [.start 3 .EINPROGRESS, .handleWrite 111] ∧
      ¬RetriesFollow [.start 3 .EINPROGRESS, .handleWrite 111] := by
  refine ⟨?_, ?_⟩
  · exact Machine.legal_cons rfl rfl (Machine.legal_cons nofun rfl trivial)
  · intro h
    rcases h.1 _ (List.prefix_refl _) (by simp) _ rfl rfl with hne | hne
    · exact hne rfl
    · exact hne rfl

/-- The first attempt succeeds. -/
theorem retriesFollow_iff_connected :
    RetriesFollow [.start 3 .EINPROGRESS, .handleWrite 0] ↔
      (connectorMachine.restrict ConnectorUse.NoFailure).Legal .new
        [.start 3 .EINPROGRESS, .handleWrite 0] :=
  retriesFollow_iff (Machine.legal_cons rfl rfl (Machine.legal_cons nofun rfl trivial))

end WebsocketCpp
