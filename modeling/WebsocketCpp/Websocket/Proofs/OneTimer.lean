import WebsocketCpp.Websocket.Proofs.ClientSteps

/-!
# The timers of a heartbeat

`start` makes a timer that repeats, and nothing cancels it. `oneTimer`: a client has one timer as long as
`onConnected` finds `eWaitPing` once only. It finds it again when a connection is closed whose last ping
has been answered.
-/

namespace WebsocketCpp

/-- In every state that is reached, at most one of the timers that `start` has made is queued. -/
def OneTimer (q : TimerQueue) (steps : List ClientStep) : Prop :=
  ∀ before, before <+: steps → ∀ c, (clientMachine.run (.start q) before).result = .ok c →
    ∀ e ∈ c.timers.queue.timerLists, ∀ e' ∈ c.timers.queue.timerLists, c.Own e → c.Own e' → e = e'

namespace HeartbeatClient

variable {c c' : HeartbeatClient}

/-- `onConnected` does not find `eWaitPing` when `start` has made a timer before. -/
def StartsOnce (c : HeartbeatClient) : ClientStep → Prop
  | .onConnected _ _ _ => ∀ rest, c.sender.callbacks = .testWaitPing :: rest →
      c.sender.state = .eWaitPing → c.own = []
  | .connect | .startInLoop _ _ | .connectorHandleWrite _ _ | .peerClose | .processPong _
  | .eventRead _ _ _ _ | .timerHandle _ => True

/-- In `start`. -/
def Starting : NotifyPlace → Prop
  | .startSend | .startSet | .startTimer => True
  | .testReconnect | .setWaitPing | .sendHeartbeat | .testWaitPing => False

/-- There is one timer at most, and none while the loop is in `start`. -/
structure StartedOnce (c : HeartbeatClient) : Prop where
  good : c.timers.Good
  inTurn : c.sender.InTurn
  one : ∀ index ∈ c.own, c.own = [index]
  starting : ∀ place rest, c.sender.callbacks = place :: rest → Starting place → c.own = []

/-- When the loop enters `start`, there is no timer. -/
theorem StartedOnce.notifies (h : c.StartedOnce) {now : Timestamp} {out : List SenderEvent}
    {sender : HeartbeatSender} (hnotifies : c.sender.Notifies now out sender)
    (honce : ∀ rest, c.sender.callbacks = .testWaitPing :: rest → c.sender.state = .eWaitPing → c.own = [])
    {place : NotifyPlace} {rest : List NotifyPlace} (heq : sender.callbacks = place :: rest)
    (hplace : Starting place) : c.own = [] := by
  cases hnotifies with
  | testReconnect =>
      obtain ⟨rfl, -⟩ := List.cons.inj heq
      split at hplace <;> cases hplace
  | setWaitPing | sendHeartbeat =>
      obtain ⟨rfl, -⟩ := List.cons.inj heq
      cases hplace
  | start hcall hstate => exact honce _ hcall hstate
  | finish hcall | startTimer hcall =>
      rw [h.inTurn.head_eq hcall heq] at hplace
      cases hplace
  | startSend hcall => exact h.starting _ _ hcall trivial
  | startSet hcall => exact h.starting _ _ hcall trivial

theorem StartedOnce.moves (h : c.StartedOnce) {a : ClientStep} (ha : c.Allowed a)
    (honce : c.StartsOnce a) {out : List ClientEvent} (hmoves : c.Moves a out c') : c'.StartedOnce := by
  refine ⟨hmoves.good h.good, hmoves.inTurn ha h.inTurn, ?_, ?_⟩
  · cases hmoves with
    | startTimer hcall =>
        rw [h.starting _ _ hcall trivial]
        exact fun index hindex => congrArg (fun index => [index]) (List.mem_singleton.mp hindex).symm
    | _ => exact h.one
  · intro place rest heq hplace
    cases hmoves with
    | connect | processPong | reconnect => exact h.starting place rest heq hplace
    | startInLoop | connectorHandleWrite | peerClose =>
        rw [HeartbeatSender.head_notified ha.1 heq] at hplace
        cases hplace
    | onConnected hnotifies => exact h.notifies hnotifies honce heq hplace
    | startTimer hcall =>
        rw [h.inTurn.head_eq hcall heq] at hplace
        cases hplace
    | @eventRead _ _ _ _ out =>
        obtain ⟨n, hn⟩ := HeartbeatSender.foldl_onTimer c.own out c.sender
        rw [hn] at heq
        exact h.starting place rest heq hplace
    | timerHandle hhandles =>
        rw [hhandles.callbacks_eq] at heq
        exact h.starting place rest heq hplace

theorem startedOnce_invariant : (clientMachine.restrict StartsOnce).Invariant StartedOnce :=
  fun _ _ _ h ha hok => h.moves ha.1 ha.2 (moves_of_result h.good ha.1 hok)

/-- Timers with one index are one timer, and a timer has one entry. -/
theorem StartedOnce.entry_unique (h : c.StartedOnce) {e e' : TimerEntity}
    (he : e ∈ c.timers.queue.timerLists) (he' : e' ∈ c.timers.queue.timerLists) (hown : c.Own e)
    (hown' : c.Own e') : e = e' := by
  obtain ⟨tm, htm, hindex⟩ := hown
  obtain ⟨tm', htm', hindex'⟩ := hown'
  have hsame : tm.index = tm'.index := by
    rw [h.one _ hindex] at hindex'
    exact (List.mem_singleton.mp hindex').symm
  have hcons := h.good.consistent
  exact hcons.entry_unique he he' (hcons.index _ _ tm tm' htm htm' hsame)

theorem startedOnce_start {sentinel : Nat} (hpos : 0 < sentinel) (hlt : sentinel < UINTPTR_MAX)
    {t0 : Timestamp} (ht0 : 0 ≤ t0) (sIndexNum : Nat) (bsetup : Bool) (clock : Clock) :
    (start (TimerQueue.constructed sIndexNum bsetup sentinel t0 clock)).StartedOnce where
  good := TimerUse.good_new sIndexNum bsetup hpos hlt ht0 clock
  inTurn := nofun
  one := nofun
  starting := nofun

end HeartbeatClient

/-- As long as `onConnected` does not start the heartbeat again, at most one of its timers is queued. -/
theorem oneTimer {sentinel : Nat} (hpos : 0 < sentinel) (hlt : sentinel < UINTPTR_MAX)
    {t0 : Timestamp} (ht0 : 0 ≤ t0) (sIndexNum : Nat) (bsetup : Bool) (clock : Clock) :
    ∃ q, TimerQueue.new sIndexNum bsetup sentinel t0 clock = pure q ∧ ∀ steps,
      (clientMachine.restrict HeartbeatClient.StartsOnce).Legal (.start q) steps → OneTimer q steps := by
  refine ⟨_, TimerQueue.new_eq sIndexNum bsetup hpos ht0 clock, ?_⟩
  rintro steps hlegal before ⟨after, rfl⟩ c hc e he e' he' hown hown'
  have hstart := HeartbeatClient.startedOnce_start hpos hlt ht0 sIndexNum bsetup clock
  have honce := HeartbeatClient.startedOnce_invariant.run hstart (Machine.legal_append.mp hlegal).1 hc
  exact honce.entry_unique he he' hown hown'

theorem startsOnce_establishRun : (clientMachine.restrict HeartbeatClient.StartsOnce).Legal
    (.start (TimerQueue.constructed 0 true 1 10 ⟨0, 10⟩)) establishRun := by
  refine Machine.legal_cons ⟨trivial, trivial⟩ rfl ?_
  refine Machine.legal_cons ⟨⟨rfl, Nat.one_pos⟩, trivial⟩ rfl ?_
  refine Machine.legal_cons ⟨⟨rfl, nofun⟩, trivial⟩ rfl ?_
  refine Machine.legal_cons ⟨⟨nofun, HeartbeatClient.free_two rfl, by decide⟩, fun _ _ _ => rfl⟩ rfl ?_
  refine Machine.legal_cons ⟨⟨nofun, HeartbeatClient.free_two rfl, by decide⟩, fun _ _ _ => rfl⟩ rfl ?_
  refine Machine.legal_cons ⟨⟨nofun, HeartbeatClient.free_two rfl, by decide⟩, fun _ _ _ => rfl⟩ rfl ?_
  refine Machine.legal_cons ⟨⟨nofun, HeartbeatClient.free_two rfl, by decide⟩, fun _ _ _ => rfl⟩ rfl ?_
  exact Machine.legal_cons
    ⟨⟨nofun, HeartbeatClient.free_two rfl, by decide⟩, fun _ _ _ => rfl⟩ rfl trivial

theorem oneTimer_establishRun : ∃ q, TimerQueue.new 0 true 1 10 ⟨0, 10⟩ = pure q ∧
    OneTimer q establishRun := by
  obtain ⟨q, hq, hruns⟩ := oneTimer (show 0 < 1 by decide) (by decide)
    (show (0 : Timestamp) ≤ 10 by decide) 0 true ⟨0, 10⟩
  refine ⟨q, hq, hruns establishRun ?_⟩
  obtain rfl := Except.ok.inj (congrArg Traced.result hq)
  exact startsOnce_establishRun

theorem HeartbeatClient.free_three {c : HeartbeatClient} (h : c.timers.queue.heap 3 = none) :
    c.timers.Free 3 := ⟨by decide, by decide, h⟩

/-- The ping is answered, and then the peer closes the connection. -/
def answeredAndClosed : List ClientStep := establishRun ++
  [.processPong 1, .peerClose, .onConnected 3 2 ⟨0, 2⟩, .onConnected 3 2 ⟨0, 2⟩, .onConnected 3 2 ⟨0, 2⟩,
    .onConnected 3 2 ⟨0, 2⟩, .onConnected 3 2 ⟨0, 2⟩]

theorem not_oneTimer_answeredAndClosed : ∃ q, TimerQueue.new 0 true 1 10 ⟨0, 10⟩ = pure q ∧
    clientMachine.Legal (.start q) answeredAndClosed ∧ ¬OneTimer q answeredAndClosed := by
  refine ⟨_, rfl, Machine.legal_append.mpr ⟨Machine.legal_of_restrict startsOnce_establishRun, ?_⟩, ?_⟩
  · intro c hc
    obtain rfl := Except.ok.inj hc
    refine Machine.legal_cons ⟨rfl, ⟨_, rfl, nofun⟩, Nat.le_refl 1⟩ rfl ?_
    refine Machine.legal_cons ⟨rfl, ⟨_, rfl, nofun⟩⟩ rfl ?_
    refine Machine.legal_cons ⟨nofun, HeartbeatClient.free_three rfl, by decide⟩ rfl ?_
    refine Machine.legal_cons ⟨nofun, HeartbeatClient.free_three rfl, by decide⟩ rfl ?_
    refine Machine.legal_cons ⟨nofun, HeartbeatClient.free_three rfl, by decide⟩ rfl ?_
    refine Machine.legal_cons ⟨nofun, HeartbeatClient.free_three rfl, by decide⟩ rfl ?_
    exact Machine.legal_cons ⟨nofun, HeartbeatClient.free_three rfl, by decide⟩ rfl trivial
  · intro h
    have hsame := h _ (List.prefix_refl _) _ rfl ⟨5000001, 2⟩ (by decide) ⟨5000002, 3⟩ (by decide)
      ⟨_, rfl, by decide⟩ ⟨_, rfl, by decide⟩
    cases hsame

end WebsocketCpp
