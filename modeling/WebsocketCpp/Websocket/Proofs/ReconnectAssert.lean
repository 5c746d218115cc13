import WebsocketCpp.Websocket.Proofs.ClientSteps

/-!
# The assertion of `startInLoop`

Nothing resets the state of a connector that has connected, and `startInLoop` asserts that it is
`eDisconnected`. `startsDisconnected`: the assertion holds in the runs in which no one connects again; a
pong that is missed does.
-/

namespace WebsocketCpp

/-- Every call of `startInLoop` finds `eDisconnected`. -/
def StartsDisconnected (q : TimerQueue) (steps : List ClientStep) : Prop :=
  ∀ state, .connector (.startInLoop state) ∈ (clientMachine.run (.start q) steps).out →
    state = .eDisconnected

namespace HeartbeatClient

variable {c c' : HeartbeatClient}

/-- Nobody connects again: the application does not once there is a connection, no attempt succeeds
while another `startInLoop` is posted, and no fire finds that a pong is missing. -/
def ConnectsOnce (c : HeartbeatClient) : ClientStep → Prop
  | .connect => c.connector.state = .eDisconnected
  | .connectorHandleWrite err _ => err = 0 → c.startInLoops = 0
  | .timerHandle i => ∀ t, c.sender.threads[i]? = some t → t.place = .testWaitPong →
      c.sender.state ≠ .eWaitPong
  | .startInLoop _ _ | .peerClose | .processPong _ | .onConnected _ _ _ | .eventRead _ _ _ _ => True

/-- Once there has been a connection, no attempt is under way, posted, or about to be posted. -/
structure ConnectedOnce (c : HeartbeatClient) : Prop where
  good : c.timers.Good
  noTimer : c.connector.NoTimer
  posted : c.connector.state = .eConnected → c.startInLoops = 0
  underWay : c.connector.state = .eConnected → c.connector.event = none
  threads : ∀ t ∈ c.sender.threads, t.place ≠ .connect

theorem ConnectedOnce.disconnected (h : c.ConnectedOnce)
    (hleft : 0 < c.startInLoops ∨ c.connector.event ≠ none) : c.connector.state = .eDisconnected := by
  cases hstate : c.connector.state with
  | eDisconnected => rfl
  | eConnected =>
      rcases hleft with hpos | hne
      · exact absurd (h.posted hstate) (Nat.ne_of_gt hpos)
      · exact absurd (h.underWay hstate) hne

theorem startInLoop_connector {connector : Connector} (h : c.connector.NoTimer)
    (hstate : c.connector.state = .eDisconnected) {sockfd : Int} {err : ConnectErrno}
    (hok : (c.connector.startInLoop sockfd err).result = .ok connector) :
    connector.NoTimer ∧ connector.state = .eDisconnected := by
  rw [Connector.startInLoop_eq h hstate] at hok
  split at hok
  · obtain rfl := Except.ok.inj hok
    exact ⟨Connector.noTimer_connectImpl h sockfd, by rw [Connector.state_connectImpl, hstate]⟩
  · split at hok <;> exact Except.ok.inj hok ▸ ⟨h, hstate⟩

theorem handleWrite_connector {connector : Connector} (h : c.connector.NoTimer)
    (hevent : c.connector.event ≠ none) {err : Nat}
    (hok : (c.connector.handleWrite err).result = .ok connector) : connector.NoTimer ∧
      connector.event = none ∧ (connector.state = .eConnected → err = 0) := by
  obtain ⟨sockfd, hsockfd⟩ := Option.ne_none_iff_exists'.mp hevent
  rw [Connector.handleWrite_eq h hsockfd] at hok
  split at hok
  · rename_i herr
    exact Except.ok.inj hok ▸ ⟨h, rfl, fun _ => herr⟩
  · exact Except.ok.inj hok ▸ ⟨h, rfl, nofun⟩

/-- No thread comes to `net_->connect()`. -/
theorem threads_of_handles {s s' : HeartbeatSender} {i : Nat} {out : List SenderEvent}
    (h : s.Handles i out s') (hthreads : ∀ t ∈ s.threads, t.place ≠ .connect)
    (honce : ∀ t, s.threads[i]? = some t → t.place = .testWaitPong → s.state ≠ .eWaitPong) :
    ∀ t ∈ s'.threads, t.place ≠ .connect := by
  have hmove : ∀ {s₁ : HeartbeatSender} {t : HandleThread} {place : HandlePlace},
      s₁.threads = s.threads → place ≠ .connect → ∀ t' ∈ (s₁.move i t place).threads,
        t'.place ≠ .connect := by
    intro s₁ t place heq hne t' ht'
    rcases HeartbeatSender.mem_move ht' with hold | rfl
    · exact hthreads t' (heq ▸ hold)
    · exact hne
  cases h with
  | ping | pass | sendHeartbeat | connect => exact hmove rfl nofun
  | missed ht hplace hstate => exact absurd hstate (honce _ ht hplace)
  | setWaitPong | finish | setReconnect => exact fun t ht => hthreads t (List.mem_of_mem_eraseIdx ht)

theorem ConnectedOnce.moves (h : c.ConnectedOnce) {a : ClientStep} (ha : c.Allowed a)
    (honce : c.ConnectsOnce a) {out : List ClientEvent} (hmoves : c.Moves a out c') :
    c'.ConnectedOnce := by
  have hgood := hmoves.good h.good
  cases hmoves with
  | connect =>
      have hne : c.connector.state ≠ .eConnected := by
        rw [show c.connector.state = .eDisconnected from honce]
        nofun
      exact ⟨hgood, h.noTimer, fun hstate => absurd hstate hne, h.underWay, h.threads⟩
  | @startInLoop _ _ connector _ _ _ hok =>
      obtain ⟨hnoTimer, hstate⟩ := startInLoop_connector h.noTimer (h.disconnected (.inl ha.2)) hok
      have hne : connector.state ≠ .eConnected := by
        rw [hstate]
        nofun
      exact ⟨hgood, hnoTimer, fun hc => absurd hc hne, fun hc => absurd hc hne, h.threads⟩
  | connectorHandleWrite hok =>
      obtain ⟨hnoTimer, hevent, herr⟩ := handleWrite_connector h.noTimer ha.2 hok
      exact ⟨hgood, hnoTimer, fun hstate => honce (herr hstate), fun _ => hevent, h.threads⟩
  | peerClose | processPong | startTimer =>
      exact ⟨hgood, h.noTimer, h.posted, h.underWay, h.threads⟩
  | onConnected hnotifies =>
      refine ⟨hgood, h.noTimer, h.posted, h.underWay, ?_⟩
      rw [hnotifies.threads_eq]
      exact h.threads
  | @eventRead _ _ _ _ out =>
      refine ⟨hgood, h.noTimer, h.posted, h.underWay, ?_⟩
      intro t ht
      obtain ⟨n, hn⟩ := HeartbeatSender.foldl_onTimer c.own out c.sender
      rw [hn] at ht
      rcases List.mem_append.mp ht with hold | hnew
      · exact h.threads t hold
      · rw [List.eq_of_mem_replicate hnew]
        nofun
  | timerHandle hhandles =>
      exact ⟨hgood, h.noTimer, h.posted, h.underWay, threads_of_handles hhandles h.threads honce⟩
  | reconnect ht hplace => exact absurd hplace (h.threads _ (List.mem_of_getElem? ht))

theorem connectedOnce_invariant : (clientMachine.restrict ConnectsOnce).Invariant ConnectedOnce :=
  fun _ _ _ h ha hok => h.moves ha.1 ha.2 (moves_of_result h.good ha.1 hok)

/-- What a step says of the state that `startInLoop` finds. -/
theorem ConnectedOnce.startInLoop (h : c.ConnectedOnce) {a : ClientStep} (ha : c.Allowed a)
    {state : ConnectorState} (hout : .connector (.startInLoop state) ∈ (c.step a).out) :
    state = .eDisconnected := by
  rcases emits_step h.good ha _ hout with ⟨sockfd, err, rfl, he⟩ | ⟨err, named, rfl, he⟩
  · have hstate := h.disconnected (.inl ha.2)
    rw [Connector.startInLoop_eq h.noTimer hstate] at he
    split at he
    · simpa using he
    · split at he <;> simpa using he
  · obtain ⟨sockfd, hsockfd⟩ := Option.ne_none_iff_exists'.mp ha.2
    rw [Connector.handleWrite_eq h.noTimer hsockfd] at he
    split at he <;> simp at he

theorem connectedOnce_start {sentinel : Nat} (hpos : 0 < sentinel) (hlt : sentinel < UINTPTR_MAX)
    {t0 : Timestamp} (ht0 : 0 ≤ t0) (sIndexNum : Nat) (bsetup : Bool) (clock : Clock) :
    (start (TimerQueue.constructed sIndexNum bsetup sentinel t0 clock)).ConnectedOnce where
  good := TimerUse.good_new sIndexNum bsetup hpos hlt ht0 clock
  noTimer := Connector.noTimer_new
  posted := nofun
  underWay := nofun
  threads := nofun

end HeartbeatClient

/-- As long as nobody connects again, every call of `startInLoop` finds `eDisconnected`. -/
theorem startsDisconnected {sentinel : Nat} (hpos : 0 < sentinel) (hlt : sentinel < UINTPTR_MAX)
    {t0 : Timestamp} (ht0 : 0 ≤ t0) (sIndexNum : Nat) (bsetup : Bool) (clock : Clock) :
    ∃ q, TimerQueue.new sIndexNum bsetup sentinel t0 clock = pure q ∧ ∀ steps,
      (clientMachine.restrict HeartbeatClient.ConnectsOnce).Legal (.start q) steps →
        StartsDisconnected q steps := by
  refine ⟨_, TimerQueue.new_eq sIndexNum bsetup hpos ht0 clock, ?_⟩
  intro steps hlegal state hout
  have hstart := HeartbeatClient.connectedOnce_start hpos hlt ht0 sIndexNum bsetup clock
  refine HeartbeatClient.connectedOnce_invariant.forall_out
    (Q := fun o => ∀ state, o = .connector (.startInLoop state) → state = .eDisconnected)
    ?_ hstart hlegal _ hout state rfl
  rintro c a h ha o ho state rfl
  exact h.startInLoop ha.1 ho

theorem connectsOnce_establishRun : (clientMachine.restrict HeartbeatClient.ConnectsOnce).Legal
    (.start (TimerQueue.constructed 0 true 1 10 ⟨0, 10⟩)) establishRun := by
  refine Machine.legal_cons ⟨trivial, rfl⟩ rfl ?_
  refine Machine.legal_cons ⟨⟨rfl, Nat.one_pos⟩, trivial⟩ rfl ?_
  refine Machine.legal_cons ⟨⟨rfl, nofun⟩, fun _ => rfl⟩ rfl ?_
  refine Machine.legal_cons ⟨⟨nofun, HeartbeatClient.free_two rfl, by decide⟩, trivial⟩ rfl ?_
  refine Machine.legal_cons ⟨⟨nofun, HeartbeatClient.free_two rfl, by decide⟩, trivial⟩ rfl ?_
  refine Machine.legal_cons ⟨⟨nofun, HeartbeatClient.free_two rfl, by decide⟩, trivial⟩ rfl ?_
  refine Machine.legal_cons ⟨⟨nofun, HeartbeatClient.free_two rfl, by decide⟩, trivial⟩ rfl ?_
  exact Machine.legal_cons ⟨⟨nofun, HeartbeatClient.free_two rfl, by decide⟩, trivial⟩ rfl trivial

theorem startsDisconnected_establishRun : ∃ q, TimerQueue.new 0 true 1 10 ⟨0, 10⟩ = pure q ∧
    StartsDisconnected q establishRun := by
  obtain ⟨q, hq, hruns⟩ := startsDisconnected (show 0 < 1 by decide) (by decide)
    (show (0 : Timestamp) ≤ 10 by decide) 0 true ⟨0, 10⟩
  refine ⟨q, hq, hruns establishRun ?_⟩
  obtain rfl := Except.ok.inj (congrArg Traced.result hq)
  exact connectsOnce_establishRun

/-- No pong comes before the timer fires, and the thread connects again. -/
def missedPong : List ClientStep := establishRun ++
  [.eventRead 5000001 true (fun _ => (.eWaitPong, 5000001)) ⟨0, 5000001⟩, .timerHandle 0, .timerHandle 0,
    .timerHandle 0, .startInLoop 6 .zero]

theorem not_startsDisconnected_missedPong : ∃ q, TimerQueue.new 0 true 1 10 ⟨0, 10⟩ = pure q ∧
    clientMachine.Legal (.start q) missedPong ∧ ¬StartsDisconnected q missedPong := by
  refine ⟨_, rfl, Machine.legal_append.mpr ⟨Machine.legal_of_restrict connectsOnce_establishRun, ?_⟩, ?_⟩
  · intro c hc
    obtain rfl := Except.ok.inj hc
    refine Machine.legal_cons ⟨rfl, fun _ => show (0 : Int) < 5000001 by decide⟩ rfl ?_
    refine Machine.legal_cons Nat.one_pos rfl ?_
    refine Machine.legal_cons Nat.one_pos rfl ?_
    refine Machine.legal_cons Nat.one_pos rfl ?_
    exact ⟨⟨rfl, Nat.one_pos⟩, fun _ _ => trivial⟩
  · intro h
    have hout : ClientEvent.connector (.startInLoop .eConnected) ∈ (clientMachine.run
        (.start (TimerQueue.constructed 0 true 1 10 ⟨0, 10⟩)) missedPong).out := by decide
    cases h .eConnected hout

end WebsocketCpp
