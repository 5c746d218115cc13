import WebsocketCpp.Websocket.Proofs.ClientSteps

/-!
# Reconnecting after an answer

The ping is sent before the state says that a pong is due. `noSpuriousReconnect`: a fire that comes after
the pong for the last ping does not connect, in the runs in which no pong overtakes the state and no ping
overtakes a fire.
-/

namespace WebsocketCpp

/-- No thread connects whose fire came after the pong for the last ping. -/
def NoSpuriousReconnect (q : TimerQueue) (steps : List ClientStep) : Prop :=
  .sender (.connect true) ∉ (clientMachine.run (.start q) steps).out

/-- Before one of the tests in `timerHandle`. -/
def HandlePlace.Testing : HandlePlace → Prop
  | .testWaitPing | .testWaitPong => True
  | .sendHeartbeat | .setWaitPong | .connect | .setReconnect => False

instance : (place : HandlePlace) → Decidable place.Testing
  | .testWaitPing | .testWaitPong => .isTrue trivial
  | .sendHeartbeat | .setWaitPong | .connect | .setReconnect => .isFalse id

namespace HeartbeatSender

variable {s s' : HeartbeatSender}

/-- No thread whose fire came after the pong has a test before it. -/
def NoneTesting (s : HeartbeatSender) : Prop :=
  ∀ t ∈ s.threads, t.answered = true → ¬t.place.Testing

instance (s : HeartbeatSender) : Decidable s.NoneTesting :=
  inferInstanceAs (Decidable (∀ t ∈ s.threads, t.answered = true → ¬t.place.Testing))

/-- When the last ping has been answered, the state does not say that a pong is due, and nobody is about
to say so; nor does it as long as a thread is testing whose fire came after such an answer. -/
structure Settled (s : HeartbeatSender) : Prop where
  le : s.answered ≤ s.sent
  state : s.answered = s.sent → s.state ≠ .eWaitPong
  setting : s.answered = s.sent → ∀ t ∈ s.threads, t.place ≠ .setWaitPong
  starting : s.answered = s.sent → ∀ rest, s.callbacks ≠ .startSet :: rest
  testing : ∀ t ∈ s.threads, t.answered = true → t.place.Testing → s.state ≠ .eWaitPong
  connect : ∀ t ∈ s.threads, t.answered = true → t.place ≠ .connect

theorem Settled.goto (h : s.Settled) {places : List NotifyPlace}
    (hstarting : s.answered = s.sent → ∀ rest, places ≠ .startSet :: rest) : (s.goto places).Settled :=
  ⟨h.le, h.state, h.setting, hstarting, h.testing, h.connect⟩

theorem Settled.notified (h : s.Settled) (hidle : s.callbacks = []) (n : Nat) : (s.notified n).Settled :=
  h.goto fun _ _ heq => NotifyPlace.noConfusion (head_notified hidle heq)

theorem Settled.sendHeartbeat (h : s.Settled) : Settled { s with sent := s.sent + 1 } := by
  have hne : ¬s.answered = s.sent + 1 := Nat.ne_of_lt (Nat.lt_succ_of_le h.le)
  exact ⟨Nat.le_succ_of_le h.le, fun heq => absurd heq hne, fun heq => absurd heq hne,
    fun heq => absurd heq hne, h.testing, h.connect⟩

theorem Settled.setWaitPong (h : s.Settled) (hne : ¬s.answered = s.sent) (hnone : s.NoneTesting) :
    (s.setHeartState .eWaitPong).Settled :=
  ⟨h.le, fun heq => absurd heq hne, fun heq => absurd heq hne, fun heq => absurd heq hne,
    fun t ht hanswered htesting => absurd htesting (hnone t ht hanswered), h.connect⟩

/-- Any other state may be set at any time. -/
theorem Settled.setHeartState (h : s.Settled) {state : HeartState} (hstate : state ≠ .eWaitPong) :
    (s.setHeartState state).Settled :=
  ⟨h.le, fun _ => hstate, h.setting, h.starting, fun _ _ _ _ => hstate, h.connect⟩

theorem Settled.processPong (h : s.Settled) (hidle : s.callbacks = []) {k : Nat} (hk : k ≤ s.sent)
    (hset : k = s.sent → ∀ t ∈ s.threads, t.place ≠ .setWaitPong) : (s.processPong k).Settled where
  le := Nat.max_le.mpr ⟨h.le, hk⟩
  state _ := nofun
  setting heq := by
    have hle := h.le
    have hmax : max s.answered k = s.sent := heq
    rcases Nat.lt_or_eq_of_le hk with hlt | hk
    · exact h.setting (by omega)
    · exact hset hk
  starting _ rest := by
    change s.callbacks ≠ _
    rw [hidle]
    nofun
  testing _ _ _ _ := nofun
  connect := h.connect

theorem Settled.fires (h : s.Settled) (n : Nat) : Settled { s with
    threads := s.threads ++ List.replicate n ⟨.testWaitPing, s.answered = s.sent⟩ } where
  le := h.le
  state := h.state
  setting heq t ht := by
    rcases List.mem_append.mp ht with hold | hnew
    · exact h.setting heq t hold
    · rw [List.eq_of_mem_replicate hnew]
      nofun
  starting := h.starting
  testing t ht hanswered htesting := by
    rcases List.mem_append.mp ht with hold | hnew
    · exact h.testing t hold hanswered htesting
    · rw [List.eq_of_mem_replicate hnew] at hanswered
      exact h.state (of_decide_eq_true hanswered)
  connect t ht hanswered := by
    rcases List.mem_append.mp ht with hold | hnew
    · exact h.connect t hold hanswered
    · rw [List.eq_of_mem_replicate hnew]
      nofun

theorem Settled.notifies (h : s.Settled) (hturn : s.InTurn) {now : Timestamp} {out : List SenderEvent}
    (hnotifies : s.Notifies now out s')
    (hnone : ∀ rest, s.callbacks = .startSet :: rest → s.NoneTesting) : s'.Settled := by
  have hrest : ∀ {place rest}, s.callbacks = place :: rest → ∀ rest', rest ≠ .startSet :: rest' :=
    fun hcall rest' heq => by cases hturn.head_eq hcall heq
  cases hnotifies with
  | testReconnect hcall =>
      apply h.goto
      intro _ rest heq
      have hplace := (List.cons.inj heq).1
      split at hplace <;> cases hplace
  | setWaitPing hcall => exact (h.setHeartState (by nofun)).goto fun _ => nofun
  | sendHeartbeat hcall => exact h.sendHeartbeat.goto fun _ => nofun
  | start hcall => exact h.goto fun _ => nofun
  | finish hcall | startTimer hcall => exact h.goto fun _ => hrest hcall
  | startSend hcall =>
      have hne : ¬s.answered = s.sent + 1 := Nat.ne_of_lt (Nat.lt_succ_of_le h.le)
      exact h.sendHeartbeat.goto fun heq => absurd heq hne
  | startSet hcall =>
      exact (h.setWaitPong (fun heq => h.starting heq _ hcall) (hnone _ hcall)).goto fun _ => nofun

/-- A thread goes from one place to the next. -/
theorem Settled.move (h : s.Settled) {i : Nat} {t : HandleThread} {place : HandlePlace}
    (hsetting : s.answered = s.sent → place ≠ .setWaitPong)
    (htesting : t.answered = true → place.Testing → s.state ≠ .eWaitPong)
    (hconnect : t.answered = true → place ≠ .connect) : (s.move i t place).Settled where
  le := h.le
  state := h.state
  setting heq t' ht' := by
    rcases mem_move ht' with hold | rfl
    · exact h.setting heq t' hold
    · exact hsetting heq
  starting := h.starting
  testing t' ht' hanswered hplace := by
    rcases mem_move ht' with hold | rfl
    · exact h.testing t' hold hanswered hplace
    · exact htesting hanswered hplace
  connect t' ht' hanswered := by
    rcases mem_move ht' with hold | rfl
    · exact h.connect t' hold hanswered
    · exact hconnect hanswered

theorem Settled.finish (h : s.Settled) (i : Nat) : (s.finish i).Settled :=
  ⟨h.le, h.state, fun heq t ht => h.setting heq t (mem_finish ht), h.starting,
    fun t ht => h.testing t (mem_finish ht), fun t ht => h.connect t (mem_finish ht)⟩

theorem Settled.handles (h : s.Settled) {i : Nat} {out : List SenderEvent} (hhandles : s.Handles i out s')
    (hnone : ∀ t, s.threads[i]? = some t → t.place = .setWaitPong → s.NoneTesting) : s'.Settled := by
  cases hhandles with
  | ping ht hplace => exact h.move (fun _ => nofun) (fun _ => nofun) (fun _ => nofun)
  | pass ht hplace hstate =>
      refine h.move (fun _ => nofun) ?_ (fun _ => nofun)
      intro hanswered _
      exact h.testing _ (List.mem_of_getElem? ht) hanswered (by rw [hplace]; trivial)
  | sendHeartbeat ht hplace =>
      have hne : ¬s.answered = s.sent + 1 := Nat.ne_of_lt (Nat.lt_succ_of_le h.le)
      exact h.sendHeartbeat.move (fun heq => absurd heq hne) (fun _ => nofun) (fun _ => nofun)
  | setWaitPong ht hplace =>
      have hne : ¬s.answered = s.sent := fun heq => h.setting heq _ (List.mem_of_getElem? ht) hplace
      exact (h.setWaitPong hne (hnone _ ht hplace)).finish i
  | missed ht hplace hstate =>
      refine h.move (fun _ => nofun) (fun _ => nofun) ?_
      intro hanswered
      exact absurd hstate (h.testing _ (List.mem_of_getElem? ht) hanswered (by rw [hplace]; trivial))
  | finish ht hplace hstate => exact h.finish i
  | connect ht hplace => exact h.move (fun _ => nofun) (fun _ => nofun) (fun _ => nofun)
  | setReconnect ht hplace => exact (h.setHeartState (by nofun)).finish i

end HeartbeatSender

namespace HeartbeatClient

variable {c c' : HeartbeatClient}

/-- No pong for the last ping is processed while a thread has sent that ping and not set the state, and
the state is not set while a thread whose fire came after the pong has a test before it. -/
def InOrder (c : HeartbeatClient) : ClientStep → Prop
  | .processPong k => k = c.sender.sent → ∀ t ∈ c.sender.threads, t.place ≠ .setWaitPong
  | .onConnected _ _ _ => ∀ rest, c.sender.callbacks = .startSet :: rest → c.sender.NoneTesting
  | .timerHandle i => ∀ t, c.sender.threads[i]? = some t → t.place = .setWaitPong →
      c.sender.NoneTesting
  | .connect | .startInLoop _ _ | .connectorHandleWrite _ _ | .peerClose | .eventRead _ _ _ _ => True

theorem inOrder_timerHandle {i : Nat} {t : HandleThread} (ht : c.sender.threads[i]? = some t)
    (hnone : t.place = .setWaitPong → c.sender.NoneTesting) : c.InOrder (.timerHandle i) := by
  intro t' ht' hplace
  rw [ht] at ht'
  obtain rfl := Option.some.inj ht'
  exact hnone hplace

structure SettledClient (c : HeartbeatClient) : Prop where
  good : c.timers.Good
  inTurn : c.sender.InTurn
  settled : c.sender.Settled

theorem SettledClient.moves (h : c.SettledClient) {a : ClientStep} (ha : c.Allowed a)
    (horder : c.InOrder a) {out : List ClientEvent} (hmoves : c.Moves a out c') :
    c'.SettledClient := by
  refine ⟨hmoves.good h.good, hmoves.inTurn ha h.inTurn, ?_⟩
  cases hmoves with
  | connect => exact h.settled
  | startInLoop | connectorHandleWrite | peerClose => exact h.settled.notified ha.1 _
  | processPong => exact h.settled.processPong ha.1 ha.2.2 horder
  | onConnected hnotifies => exact h.settled.notifies h.inTurn hnotifies horder
  | startTimer hcall =>
      have hnotifies : c.sender.Notifies 0 _ _ := .startTimer hcall
      exact h.settled.notifies h.inTurn hnotifies horder
  | @eventRead _ _ _ _ out =>
      obtain ⟨n, hn⟩ := HeartbeatSender.foldl_onTimer c.own out c.sender
      rw [hn]
      exact h.settled.fires n
  | timerHandle hhandles => exact h.settled.handles hhandles horder
  | reconnect ht hplace => exact h.settled.handles (.connect ht hplace) horder

theorem settledClient_invariant : (clientMachine.restrict InOrder).Invariant SettledClient :=
  fun _ _ _ h ha hok => h.moves ha.1 ha.2 (moves_of_result h.good ha.1 hok)

/-- A thread that connects has not fired after the pong. -/
theorem SettledClient.connect_notMem (h : c.SettledClient) {a : ClientStep} (ha : c.Allowed a) :
    .sender (.connect true) ∉ (c.step a).out := by
  intro hout
  obtain ⟨i, t, -, ht, hplace, hanswered⟩ := emits_step h.good ha _ hout
  exact h.settled.connect t (List.mem_of_getElem? ht) hanswered.symm hplace

theorem settledClient_start {sentinel : Nat} (hpos : 0 < sentinel) (hlt : sentinel < UINTPTR_MAX)
    {t0 : Timestamp} (ht0 : 0 ≤ t0) (sIndexNum : Nat) (bsetup : Bool) (clock : Clock) :
    (start (TimerQueue.constructed sIndexNum bsetup sentinel t0 clock)).SettledClient where
  good := TimerUse.good_new sIndexNum bsetup hpos hlt ht0 clock
  inTurn := nofun
  settled := ⟨Nat.le_refl 0, nofun, nofun, nofun, nofun, nofun⟩

end HeartbeatClient

/-- As long as pings, pongs and states come in order, no fire that comes after the pong for the last ping
connects. -/
theorem noSpuriousReconnect {sentinel : Nat} (hpos : 0 < sentinel) (hlt : sentinel < UINTPTR_MAX)
    {t0 : Timestamp} (ht0 : 0 ≤ t0) (sIndexNum : Nat) (bsetup : Bool) (clock : Clock) :
    ∃ q, TimerQueue.new sIndexNum bsetup sentinel t0 clock = pure q ∧ ∀ steps,
      (clientMachine.restrict HeartbeatClient.InOrder).Legal (.start q) steps →
        NoSpuriousReconnect q steps := by
  refine ⟨_, TimerQueue.new_eq sIndexNum bsetup hpos ht0 clock, ?_⟩
  intro steps hlegal hout
  have hstart := HeartbeatClient.settledClient_start hpos hlt ht0 sIndexNum bsetup clock
  have hnone := HeartbeatClient.settledClient_invariant.forall_out
    (Q := fun o => o ≠ .sender (.connect true)) ?_ hstart hlegal
  · exact hnone _ hout rfl
  · rintro c a h ha o ho rfl
    exact h.connect_notMem ha.1 ho

theorem inOrder_establishRun : (clientMachine.restrict HeartbeatClient.InOrder).Legal
    (.start (TimerQueue.constructed 0 true 1 10 ⟨0, 10⟩)) establishRun := by
  refine Machine.legal_cons ⟨trivial, trivial⟩ rfl ?_
  refine Machine.legal_cons ⟨⟨rfl, Nat.one_pos⟩, trivial⟩ rfl ?_
  refine Machine.legal_cons ⟨⟨rfl, nofun⟩, trivial⟩ rfl ?_
  refine Machine.legal_cons ⟨⟨nofun, HeartbeatClient.free_two rfl, by decide⟩, fun _ _ => nofun⟩ rfl ?_
  refine Machine.legal_cons ⟨⟨nofun, HeartbeatClient.free_two rfl, by decide⟩, fun _ _ => nofun⟩ rfl ?_
  refine Machine.legal_cons ⟨⟨nofun, HeartbeatClient.free_two rfl, by decide⟩, fun _ _ => nofun⟩ rfl ?_
  refine Machine.legal_cons ⟨⟨nofun, HeartbeatClient.free_two rfl, by decide⟩, fun _ _ => nofun⟩ rfl ?_
  exact Machine.legal_cons
    ⟨⟨nofun, HeartbeatClient.free_two rfl, by decide⟩, fun _ _ => nofun⟩ rfl trivial

/-- The second ping is sent by a fire and answered after the state says so, and the next fire comes after
that answer. -/
def answeredRun : List ClientStep := establishRun ++
  [.processPong 1, .eventRead 5000001 true (fun _ => (.eWaitPing, 5000001)) ⟨0, 5000001⟩, .timerHandle 0,
    .timerHandle 0, .timerHandle 0, .processPong 2,
    .eventRead 15000001 true (fun _ => (.eWaitPong, 15000001)) ⟨0, 15000001⟩, .timerHandle 0,
    .timerHandle 0]

theorem noSpuriousReconnect_answeredRun : ∃ q, TimerQueue.new 0 true 1 10 ⟨0, 10⟩ = pure q ∧
    NoSpuriousReconnect q answeredRun := by
  obtain ⟨q, hq, hruns⟩ := noSpuriousReconnect (show 0 < 1 by decide) (by decide)
    (show (0 : Timestamp) ≤ 10 by decide) 0 true ⟨0, 10⟩
  refine ⟨q, hq, hruns answeredRun ?_⟩
  obtain rfl := Except.ok.inj (congrArg Traced.result hq)
  refine Machine.legal_append.mpr ⟨inOrder_establishRun, ?_⟩
  intro c hc
  obtain rfl := Except.ok.inj hc
  refine Machine.legal_cons ⟨⟨rfl, ⟨_, rfl, nofun⟩, Nat.le_refl 1⟩, nofun⟩ rfl ?_
  refine Machine.legal_cons ⟨⟨rfl, fun _ => show (0 : Int) < 5000001 by decide⟩, trivial⟩ rfl ?_
  refine Machine.legal_cons ⟨Nat.one_pos, HeartbeatClient.inOrder_timerHandle rfl (by decide)⟩ rfl ?_
  refine Machine.legal_cons ⟨Nat.one_pos, HeartbeatClient.inOrder_timerHandle rfl (by decide)⟩ rfl ?_
  refine Machine.legal_cons ⟨Nat.one_pos, HeartbeatClient.inOrder_timerHandle rfl (by decide)⟩ rfl ?_
  refine Machine.legal_cons ⟨⟨rfl, ⟨_, rfl, nofun⟩, Nat.le_refl 2⟩, fun _ => by decide⟩ rfl ?_
  refine Machine.legal_cons ⟨⟨rfl, fun _ => show (0 : Int) < 15000001 by decide⟩, trivial⟩ rfl ?_
  refine Machine.legal_cons ⟨Nat.one_pos, HeartbeatClient.inOrder_timerHandle rfl (by decide)⟩ rfl ?_
  exact Machine.legal_cons ⟨Nat.one_pos, HeartbeatClient.inOrder_timerHandle rfl (by decide)⟩ rfl trivial

/-- The pong for the second ping is processed before the thread that has sent it sets the state. -/
def earlyPong : List ClientStep := establishRun ++
  [.processPong 1, .eventRead 5000001 true (fun _ => (.eWaitPing, 5000001)) ⟨0, 5000001⟩, .timerHandle 0,
    .timerHandle 0, .processPong 2, .timerHandle 0,
    .eventRead 15000001 true (fun _ => (.eWaitPong, 15000001)) ⟨0, 15000001⟩, .timerHandle 0,
    .timerHandle 0, .timerHandle 0]

theorem not_noSpuriousReconnect_earlyPong : ∃ q, TimerQueue.new 0 true 1 10 ⟨0, 10⟩ = pure q ∧
    clientMachine.Legal (.start q) earlyPong ∧ ¬NoSpuriousReconnect q earlyPong := by
  refine ⟨_, rfl, Machine.legal_append.mpr ⟨Machine.legal_of_restrict inOrder_establishRun, ?_⟩, ?_⟩
  · intro c hc
    obtain rfl := Except.ok.inj hc
    refine Machine.legal_cons ⟨rfl, ⟨_, rfl, nofun⟩, Nat.le_refl 1⟩ rfl ?_
    refine Machine.legal_cons ⟨rfl, fun _ => show (0 : Int) < 5000001 by decide⟩ rfl ?_
    refine Machine.legal_cons Nat.one_pos rfl ?_
    refine Machine.legal_cons Nat.one_pos rfl ?_
    refine Machine.legal_cons ⟨rfl, ⟨_, rfl, nofun⟩, Nat.le_refl 2⟩ rfl ?_
    refine Machine.legal_cons Nat.one_pos rfl ?_
    refine Machine.legal_cons ⟨rfl, fun _ => show (0 : Int) < 15000001 by decide⟩ rfl ?_
    refine Machine.legal_cons Nat.one_pos rfl ?_
    refine Machine.legal_cons Nat.one_pos rfl ?_
    exact Machine.legal_cons Nat.one_pos rfl trivial
  · intro h
    exact h (by decide)

end WebsocketCpp
