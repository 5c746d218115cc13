import WebsocketCpp.Base.Proofs.TimerRuns
import WebsocketCpp.Websocket.ClientHeartbeat

/-!
# Steps of a client

`Notifies`, `Handles` and `Moves` say once what each step of the heartbeat and of its client can do; the
results about runs go by their cases.
-/

namespace WebsocketCpp

open Traced

namespace HeartbeatSender

variable {s : HeartbeatSender}

/-- The heartbeat after the loop has called `onConnected` some times. -/
def notified (s : HeartbeatSender) (n : Nat) : HeartbeatSender :=
  s.goto (s.callbacks ++ List.replicate n .testReconnect)

theorem notified_zero : s.notified 0 = s := congrArg s.goto (List.append_nil _)

theorem notified_notified (m n : Nat) : (s.notified m).notified n = s.notified (m + n) := by
  apply congrArg s.goto
  change s.callbacks ++ _ ++ _ = _
  rw [List.append_assoc, List.replicate_append_replicate]

theorem foldl_onConn (out : List ConnEvent) (s : HeartbeatSender) :
    ∃ n, out.foldl onConn s = s.notified n := by
  induction out generalizing s with
  | nil => exact ⟨0, notified_zero.symm⟩
  | cons e out ih =>
      obtain ⟨n, hn⟩ := ih (s.onConn e)
      rw [List.foldl_cons, hn]
      cases e with
      | connCallbackFunc state => exact ⟨1 + n, notified_notified 1 n⟩
      | send | msgRecvFunc | closeFunc | getsockError | shutdownWrite => exact ⟨n, rfl⟩

/-- The heartbeat after some fires. -/
theorem foldl_onTimer (own : List Nat) (out : List TimerEvent) (s : HeartbeatSender) :
    ∃ n, out.foldl (onTimer own) s = { s with
      threads := s.threads ++ List.replicate n ⟨.testWaitPing, s.answered = s.sent⟩ } := by
  induction out generalizing s with
  | nil => exact ⟨0, by simp⟩
  | cons e out ih =>
      obtain ⟨n, hn⟩ := ih (s.onTimer own e)
      rw [List.foldl_cons, hn]
      have hfire : s.onTimer own e = s.fire ∨ s.onTimer own e = s := by
        cases e with
        | run p index =>
            rw [onTimer]
            split
            · exact .inl rfl
            · exact .inr rfl
        | deleted => exact .inr rfl
      rcases hfire with heq | heq
      · refine ⟨1 + n, ?_⟩
        rw [heq, fire, List.append_assoc, ← List.replicate_append_replicate]
        rfl
      · exact ⟨n, by rw [heq]⟩

/-- A step of the loop in `onConnected`. -/
inductive Notifies (now : Timestamp) : HeartbeatSender → List SenderEvent → HeartbeatSender → Prop where
  | testReconnect {s : HeartbeatSender} {rest : List NotifyPlace}
      (h : s.callbacks = .testReconnect :: rest) :
      Notifies now s []
        (s.goto ((if s.state = .eReconnect then .setWaitPing else .testWaitPing) :: rest))
  | setWaitPing {s : HeartbeatSender} {rest : List NotifyPlace} (h : s.callbacks = .setWaitPing :: rest) :
      Notifies now s [] ((s.setHeartState .eWaitPing).goto (.sendHeartbeat :: rest))
  | sendHeartbeat {s : HeartbeatSender} {rest : List NotifyPlace}
      (h : s.callbacks = .sendHeartbeat :: rest) :
      Notifies now s [.ping] ({ s with sent := s.sent + 1 }.goto (.testWaitPing :: rest))
  | start {s : HeartbeatSender} {rest : List NotifyPlace} (h : s.callbacks = .testWaitPing :: rest)
      (hstate : s.state = .eWaitPing) : Notifies now s [] (s.goto (.startSend :: rest))
  | finish {s : HeartbeatSender} {rest : List NotifyPlace} (h : s.callbacks = .testWaitPing :: rest)
      (hstate : s.state ≠ .eWaitPing) : Notifies now s [] (s.goto rest)
  | startSend {s : HeartbeatSender} {rest : List NotifyPlace} (h : s.callbacks = .startSend :: rest) :
      Notifies now s [.ping] ({ s with sent := s.sent + 1 }.goto (.startSet :: rest))
  | startSet {s : HeartbeatSender} {rest : List NotifyPlace} (h : s.callbacks = .startSet :: rest) :
      Notifies now s [] ((s.setHeartState .eWaitPong).goto (.startTimer :: rest))
  | startTimer {s : HeartbeatSender} {rest : List NotifyPlace} (h : s.callbacks = .startTimer :: rest) :
      Notifies now s [.runAt (s.state.nextTimestamp now)] (s.goto rest)

theorem notify_eq (h : s.callbacks ≠ []) (now : Timestamp) :
    ∃ out s', s.notify now = ⟨out, .ok s'⟩ ∧ s.Notifies now out s' := by
  cases hplaces : s.callbacks with
  | nil => exact absurd hplaces h
  | cons place rest =>
      rw [notify, hplaces]
      cases place with
      | testReconnect => exact ⟨_, _, rfl, .testReconnect hplaces⟩
      | setWaitPing => exact ⟨_, _, rfl, .setWaitPing hplaces⟩
      | sendHeartbeat => exact ⟨_, _, rfl, .sendHeartbeat hplaces⟩
      | testWaitPing =>
          by_cases hstate : s.state = .eWaitPing
          · exact ⟨_, _, by simp only [if_pos hstate]; rfl, .start hplaces hstate⟩
          · exact ⟨_, _, by simp only [if_neg hstate]; rfl, .finish hplaces hstate⟩
      | startSend => exact ⟨_, _, rfl, .startSend hplaces⟩
      | startSet => exact ⟨_, _, rfl, .startSet hplaces⟩
      | startTimer => exact ⟨_, _, rfl, .startTimer hplaces⟩

/-- The loop does not connect. -/
theorem Notifies.connect_notMem {now : Timestamp} {out : List SenderEvent} {s' : HeartbeatSender}
    (h : s.Notifies now out s') (answered : Bool) : .connect answered ∉ out := by
  cases h <;> simp

theorem Notifies.threads_eq {now : Timestamp} {out : List SenderEvent} {s' : HeartbeatSender}
    (h : s.Notifies now out s') : s'.threads = s.threads := by
  cases h <;> rfl

/-- The calls that the loop has not begun are at their first place. -/
def InTurn (s : HeartbeatSender) : Prop := ∀ place ∈ s.callbacks.tail, place = .testReconnect

theorem inTurn_notified (h : s.callbacks = []) (n : Nat) : (s.notified n).InTurn := by
  intro place hplace
  rw [notified, h] at hplace
  exact List.eq_of_mem_replicate (List.mem_of_mem_tail hplace)

/-- The loop begins with the first place of `onConnected`. -/
theorem head_notified (h : s.callbacks = []) {n : Nat} {place : NotifyPlace} {rest : List NotifyPlace}
    (heq : (s.notified n).callbacks = place :: rest) : place = .testReconnect := by
  rw [notified, h] at heq
  apply List.eq_of_mem_replicate (n := n)
  rw [show List.replicate n _ = place :: rest from heq]
  exact List.mem_cons_self

theorem Notifies.inTurn {now : Timestamp} {out : List SenderEvent} {s' : HeartbeatSender}
    (h : s.Notifies now out s') (hturn : s.InTurn) : s'.InTurn := by
  have hrest : ∀ {place rest}, s.callbacks = place :: rest → ∀ p ∈ rest, p = .testReconnect := by
    intro place rest heq p hp
    apply hturn p
    rw [heq]
    exact hp
  cases h with
  | finish h | startTimer h => exact fun p hp => hrest h p (List.mem_of_mem_tail hp)
  | testReconnect h | setWaitPing h | sendHeartbeat h | start h | startSend h | startSet h => exact hrest h

/-- A call that is next is at its first place. -/
theorem InTurn.head_eq (h : s.InTurn) {place place' : NotifyPlace} {rest rest' : List NotifyPlace}
    (heq : s.callbacks = place :: rest) (hrest : rest = place' :: rest') : place' = .testReconnect := by
  apply h place'
  rw [heq, hrest]
  exact List.mem_cons_self

/-- A step of the thread `i` in `timerHandle`. -/
inductive Handles (i : Nat) : HeartbeatSender → List SenderEvent → HeartbeatSender → Prop where
  | ping {s : HeartbeatSender} {t : HandleThread} (ht : s.threads[i]? = some t)
      (hplace : t.place = .testWaitPing) (hstate : s.state = .eWaitPing) :
      Handles i s [] (s.move i t .sendHeartbeat)
  | pass {s : HeartbeatSender} {t : HandleThread} (ht : s.threads[i]? = some t)
      (hplace : t.place = .testWaitPing) (hstate : s.state ≠ .eWaitPing) :
      Handles i s [] (s.move i t .testWaitPong)
  | sendHeartbeat {s : HeartbeatSender} {t : HandleThread} (ht : s.threads[i]? = some t)
      (hplace : t.place = .sendHeartbeat) :
      Handles i s [.ping] ({ s with sent := s.sent + 1 }.move i t .setWaitPong)
  | setWaitPong {s : HeartbeatSender} {t : HandleThread} (ht : s.threads[i]? = some t)
      (hplace : t.place = .setWaitPong) : Handles i s [] ((s.setHeartState .eWaitPong).finish i)
  | missed {s : HeartbeatSender} {t : HandleThread} (ht : s.threads[i]? = some t)
      (hplace : t.place = .testWaitPong) (hstate : s.state = .eWaitPong) :
      Handles i s [] (s.move i t .connect)
  | finish {s : HeartbeatSender} {t : HandleThread} (ht : s.threads[i]? = some t)
      (hplace : t.place = .testWaitPong) (hstate : s.state ≠ .eWaitPong) : Handles i s [] (s.finish i)
  | connect {s : HeartbeatSender} {t : HandleThread} (ht : s.threads[i]? = some t)
      (hplace : t.place = .connect) :
      Handles i s [.connect t.answered] (s.move i t .setReconnect)
  | setReconnect {s : HeartbeatSender} {t : HandleThread} (ht : s.threads[i]? = some t)
      (hplace : t.place = .setReconnect) : Handles i s [] ((s.setHeartState .eReconnect).finish i)

theorem mem_move {i : Nat} {t t' : HandleThread} {place : HandlePlace}
    (h : t' ∈ (s.move i t place).threads) : t' ∈ s.threads ∨ t' = { t with place := place } :=
  List.mem_or_eq_of_mem_set h

theorem mem_finish {i : Nat} {t' : HandleThread} (h : t' ∈ (s.finish i).threads) : t' ∈ s.threads :=
  List.mem_of_mem_eraseIdx h

theorem Handles.callbacks_eq {i : Nat} {out : List SenderEvent} {s' : HeartbeatSender}
    (h : s.Handles i out s') : s'.callbacks = s.callbacks := by
  cases h <;> rfl

theorem timerHandle_eq {i : Nat} (h : i < s.threads.length) :
    ∃ out s', s.timerHandle i = ⟨out, .ok s'⟩ ∧ s.Handles i out s' := by
  have ht : s.threads[i]? = some s.threads[i] := List.getElem?_eq_getElem h
  rw [timerHandle, ht]
  cases hplace : s.threads[i].place with
  | testWaitPing =>
      by_cases hstate : s.state = .eWaitPing
      · exact ⟨_, _, by simp only [hplace, if_pos hstate]; rfl, .ping ht hplace hstate⟩
      · exact ⟨_, _, by simp only [hplace, if_neg hstate]; rfl, .pass ht hplace hstate⟩
  | sendHeartbeat => exact ⟨_, _, by simp only [hplace]; rfl, .sendHeartbeat ht hplace⟩
  | setWaitPong => exact ⟨_, _, by simp only [hplace]; rfl, .setWaitPong ht hplace⟩
  | testWaitPong =>
      by_cases hstate : s.state = .eWaitPong
      · exact ⟨_, _, by simp only [hplace, if_pos hstate]; rfl, .missed ht hplace hstate⟩
      · exact ⟨_, _, by simp only [hplace, if_neg hstate]; rfl, .finish ht hplace hstate⟩
  | connect => exact ⟨_, _, by simp only [hplace]; rfl, .connect ht hplace⟩
  | setReconnect => exact ⟨_, _, by simp only [hplace]; rfl, .setReconnect ht hplace⟩

end HeartbeatSender

theorem HeartState.valid_nextTimestamp (hs : HeartState) {now : Timestamp} (h : now.valid) :
    (hs.nextTimestamp now).valid := by
  have hadd : ∀ microsec : Int, 0 ≤ microsec → (now.addSeconds microsec).valid :=
    fun _ hpos => Int.add_pos_of_pos_of_nonneg h hpos
  cases hs with
  | eWaitPing | eWaitPong | eReconnect => exact hadd _ (by decide)
  | eToBeClosed => exact h

namespace HeartbeatClient

variable {c c' : HeartbeatClient}

/-! ## What the loop does -/

/-- The connection may be another one, and `onConnected` has been called some times. -/
def Heard (c c' : HeartbeatClient) : Prop :=
  ∃ conn n, c' = { c with conn := conn, sender := c.sender.notified n }

theorem Heard.refl (c : HeartbeatClient) : c.Heard c :=
  ⟨c.conn, 0, by rw [HeartbeatSender.notified_zero]⟩

theorem Heard.trans {c'' : HeartbeatClient} (h : c.Heard c') (h' : c'.Heard c'') : c.Heard c'' := by
  obtain ⟨conn, m, rfl⟩ := h
  obtain ⟨conn', n, rfl⟩ := h'
  exact ⟨conn', m + n, by rw [HeartbeatSender.notified_notified]⟩

theorem useConn_eq (c : HeartbeatClient) (x : Conn Connection) :
    c.useConn x = ⟨x.out.map .conn, x.result.map fun conn =>
      { c with sender := x.out.foldl HeartbeatSender.onConn c.sender, conn := some conn }⟩ := by
  have hheard : ∀ (s : HeartbeatSender) e, (do emit (.conn e); pure (s.onConn e)) =
      (⟨[.conn e], .ok (s.onConn e)⟩ : ClientRun HeartbeatSender) := fun _ _ => rfl
  rw [useConn, handle_map hheard c.sender x]
  rcases x with ⟨out, e | conn⟩
  · rfl
  · exact congrArg (Traced.mk · _) (List.append_nil _)

theorem heard_useConn {x : Conn Connection} (hok : (c.useConn x).result = .ok c') : c.Heard c' := by
  rw [useConn_eq] at hok
  rcases x with ⟨out, e | conn⟩
  · cases hok
  · obtain rfl := Except.ok.inj hok
    obtain ⟨n, hn⟩ := c.sender.foldl_onConn out
    exact ⟨some conn, n, by rw [hn]⟩

theorem heard_establishConnection {named : Bool} (hok : (c.establishConnection named).result = .ok c') :
    c.Heard c' := by
  rw [establishConnection] at hok
  obtain ⟨_, -, hok⟩ := result_bind hok
  obtain ⟨c₁, hdelete, hok⟩ := result_bind hok
  refine Heard.trans ?_ (heard_useConn hok)
  rw [deleteConn] at hdelete
  split at hdelete
  · split at hdelete
    · exact heard_useConn hdelete
    · exact Except.ok.inj hdelete ▸ .refl c
  · exact Except.ok.inj hdelete ▸ .refl c

theorem heard_onConnector {named : Bool} {e : ConnectorEvent}
    (hok : (onConnector named c e).result = .ok c') : c.Heard c' := by
  obtain ⟨-, -, hok⟩ := result_bind hok
  cases e with
  | newConnCreateCallback sockfd => exact heard_establishConnection hok
  | startInLoop | socket | close | runDelay | cancelTimer => exact Except.ok.inj hok ▸ .refl c

theorem heard_foldlM {named : Bool} {out : List ConnectorEvent}
    (hok : (out.foldlM (onConnector named) c).result = .ok c') : c.Heard c' := by
  induction out generalizing c with
  | nil => exact Except.ok.inj hok ▸ .refl c
  | cons e out ih =>
      obtain ⟨c₁, hone, hrest⟩ := result_bind hok
      exact (heard_onConnector hone).trans (ih hrest)

theorem useConnector_ok {named : Bool} {x : Connecting Connector}
    (hok : (c.useConnector named x).result = .ok c') : ∃ connector conn n, x.result = .ok connector ∧
      c' = { c with connector := connector, conn := conn, sender := c.sender.notified n } := by
  obtain ⟨⟨c₁, connector⟩, hhandle, hok⟩ := result_bind hok
  obtain rfl := Except.ok.inj hok
  obtain ⟨hfold, hresult⟩ := result_handle hhandle
  obtain ⟨conn, n, rfl⟩ := heard_foldlM hfold
  exact ⟨connector, conn, n, hresult, rfl⟩

/-- A timer is made at a free address and added. -/
theorem runAt_eq (hgood : c.timers.Good) {p : Nat} (hfree : c.timers.Free p) {expiration : Timestamp}
    (hvalid : expiration.valid) (clock : Clock) :
    ∃ timers, c.runAt p expiration clock =
        pure { c with timers := timers, own := c.timers.queue.sIndexNum :: c.own } ∧
      (c.timers.constructed p expiration true true (some 1000000)).Moves (.addTimer p clock) [] timers := by
  have hnew := hgood.constructed hfree expiration true true (some 1000000)
  have hadd : (c.timers.constructed p expiration true true (some 1000000)).CanAdd p :=
    ⟨(hnew.pending p (List.mem_cons_self ..)).2, _, TimerQueue.heap_setTimer_self c.timers.queue p _, hvalid⟩
  obtain ⟨timers, hstep, hmoves⟩ := TimerUse.step_addTimer hnew hadd clock
  refine ⟨timers, ?_, hmoves⟩
  change (do
    let timers ← mapOut ClientEvent.timer
      ((c.timers.constructed p expiration true true (some 1000000)).step (.addTimer p clock))
    pure { c with timers := timers, own := c.timers.queue.sIndexNum :: c.own }) = _
  rw [hstep]
  rfl

theorem eventRead_eq (c : HeartbeatClient) (evtime : Timestamp) (expired : Bool)
    (reads : Nat → HeartState × Timestamp) (clock : Clock) {out : List TimerEvent}
    {result : Except ObjectFault TimerUse}
    (h : c.timers.step (.eventRead evtime expired (restarts reads) clock) = ⟨out, result⟩) :
    c.eventRead evtime expired reads clock = ⟨out.map .timer, result.map fun timers =>
      { c with sender := out.foldl (HeartbeatSender.onTimer c.own) c.sender, timers := timers }⟩ := by
  have hfires : ∀ (s : HeartbeatSender) e, (do emit (.timer e); pure (s.onTimer c.own e)) =
      (⟨[.timer e], .ok (s.onTimer c.own e)⟩ : ClientRun HeartbeatSender) := fun _ _ => rfl
  rw [eventRead, handle_map hfires c.sender, h]
  rcases result with e | timers
  · rfl
  · exact congrArg (Traced.mk · _) (List.append_nil _)

/-- The heartbeat does nothing that needs more than the posting of a task. -/
theorem useSender_of_quiet {out : List SenderEvent} (hquiet : ∀ e, .runAt e ∉ out ∧ ∀ b, .connect b ∉ out)
    (p : Nat) (clock : Clock) (sender : HeartbeatSender) :
    c.useSender p clock ⟨out, .ok sender⟩ = ⟨out.map .sender, .ok { c with sender := sender }⟩ := by
  have hfold : out.foldlM (onSender p clock) c = ⟨out.map .sender, .ok c⟩ := by
    induction out with
    | nil => rfl
    | cons e out ih =>
        have hrest := ih fun e' => ⟨fun h => (hquiet e').1 (List.mem_cons_of_mem _ h),
          fun b h => (hquiet e').2 b (List.mem_cons_of_mem _ h)⟩
        rw [List.foldlM_cons]
        cases e with
        | ping => exact (bind_of_ok rfl _).trans (by rw [hrest]; rfl)
        | connect b => exact absurd List.mem_cons_self ((hquiet 0).2 b)
        | runAt e => exact absurd List.mem_cons_self (hquiet e).1
  rw [useSender, handle_ok hfold, mk_bind]
  exact congrArg (Traced.mk · _) (List.append_nil _)

/-! ## What a step does -/

inductive Moves : HeartbeatClient → ClientStep → List ClientEvent → HeartbeatClient → Prop where
  | connect {c : HeartbeatClient} : Moves c .connect [] { c with startInLoops := c.startInLoops + 1 }
  | startInLoop {c : HeartbeatClient} {sockfd : Int} {err : ConnectErrno} {connector : Connector}
      {conn : Option Connection} {n : Nat} {out : List ClientEvent}
      (h : (c.connector.startInLoop sockfd err).result = .ok connector) :
      Moves c (.startInLoop sockfd err) out
        { c with
          connector := connector, startInLoops := c.startInLoops - 1, conn := conn
          sender := c.sender.notified n }
  | connectorHandleWrite {c : HeartbeatClient} {err : Nat} {named : Bool} {connector : Connector}
      {conn : Option Connection} {n : Nat} {out : List ClientEvent}
      (h : (c.connector.handleWrite err).result = .ok connector) :
      Moves c (.connectorHandleWrite err named) out
        { c with connector := connector, conn := conn, sender := c.sender.notified n }
  | peerClose {c : HeartbeatClient} {conn : Option Connection} {n : Nat} {out : List ClientEvent} :
      Moves c .peerClose out { c with conn := conn, sender := c.sender.notified n }
  | processPong {c : HeartbeatClient} {k : Nat} :
      Moves c (.processPong k) [] { c with sender := c.sender.processPong k }
  | onConnected {c : HeartbeatClient} {p : Nat} {now : Timestamp} {clock : Clock}
      {sender : HeartbeatSender} {out : List SenderEvent} (h : c.sender.Notifies now out sender)
      (hquiet : ∀ expiration, .runAt expiration ∉ out) :
      Moves c (.onConnected p now clock) (out.map .sender) { c with sender := sender }
  | startTimer {c : HeartbeatClient} {p : Nat} {now : Timestamp} {clock : Clock}
      {rest : List NotifyPlace} {timers : TimerUse} (h : c.sender.callbacks = .startTimer :: rest)
      (hfree : c.timers.Free p)
      (hadd : (c.timers.constructed p (c.sender.state.nextTimestamp now) true true (some 1000000)).Moves
        (.addTimer p clock) [] timers) :
      Moves c (.onConnected p now clock) [.sender (.runAt (c.sender.state.nextTimestamp now))]
        { c with
          sender := c.sender.goto rest, timers := timers
          own := c.timers.queue.sIndexNum :: c.own }
  | eventRead {c : HeartbeatClient} {evtime : Timestamp} {expired : Bool}
      {reads : Nat → HeartState × Timestamp} {clock : Clock} {out : List TimerEvent} {timers : TimerUse}
      (h : c.timers.Moves (.eventRead evtime expired (restarts reads) clock) out timers) :
      Moves c (.eventRead evtime expired reads clock) (out.map .timer)
        { c with sender := out.foldl (HeartbeatSender.onTimer c.own) c.sender, timers := timers }
  | timerHandle {c : HeartbeatClient} {i : Nat} {sender : HeartbeatSender} {out : List SenderEvent}
      (h : c.sender.Handles i out sender) (hquiet : ∀ b, .connect b ∉ out) :
      Moves c (.timerHandle i) (out.map .sender) { c with sender := sender }
  | reconnect {c : HeartbeatClient} {i : Nat} {t : HandleThread} (ht : c.sender.threads[i]? = some t)
      (hplace : t.place = .connect) :
      Moves c (.timerHandle i) [.sender (.connect t.answered)]
        { c with
          sender := c.sender.move i t .setReconnect, startInLoops := c.startInLoops + 1 }

theorem notifies_moves (hgood : c.timers.Good) {p : Nat} {now : Timestamp} (clock : Clock)
    (ha : c.Allowed (.onConnected p now clock)) : ∃ out c',
      c.step (.onConnected p now clock) = ⟨out, .ok c'⟩ ∧ c.Moves (.onConnected p now clock) out c' := by
  obtain ⟨hbusy, hfree, hnow⟩ := ha
  obtain ⟨out, sender, heq, hsender⟩ := c.sender.notify_eq hbusy now
  rw [step, heq]
  by_cases hquiet : ∀ expiration, .runAt expiration ∉ out
  · exact ⟨_, _, useSender_of_quiet (fun e => ⟨hquiet e, hsender.connect_notMem⟩) p clock sender,
      .onConnected hsender hquiet⟩
  · cases hsender with
    | startTimer h =>
        have hvalid := c.sender.state.valid_nextTimestamp hnow
        obtain ⟨timers, hrun, hadd⟩ := runAt_eq hgood hfree hvalid clock
        refine ⟨_, _, ?_, .startTimer h hfree hadd⟩
        have hfold : [.runAt (c.sender.state.nextTimestamp now)].foldlM (onSender p clock) c =
            ⟨[.sender (.runAt (c.sender.state.nextTimestamp now))],
              .ok { c with timers := timers, own := c.timers.queue.sIndexNum :: c.own }⟩ := by
          rw [List.foldlM_cons, onSender]
          simp only [hrun]
          rfl
        rw [useSender, handle_ok hfold]
        rfl
    | _ => exact absurd (by simp) hquiet

theorem handles_moves {i : Nat} (hi : i < c.sender.threads.length) : ∃ out c',
    c.step (.timerHandle i) = ⟨out, .ok c'⟩ ∧ c.Moves (.timerHandle i) out c' := by
  obtain ⟨out, sender, heq, hsender⟩ := c.sender.timerHandle_eq hi
  rw [step, heq]
  by_cases hquiet : ∀ b, .connect b ∉ out
  · have htimer : ∀ expiration, .runAt expiration ∉ out := by cases hsender <;> simp
    exact ⟨_, _, useSender_of_quiet (fun e => ⟨htimer e, hquiet⟩) 0 ⟨0, 0⟩ sender,
      .timerHandle hsender hquiet⟩
  · cases hsender with
    | connect ht hplace => exact ⟨_, _, rfl, .reconnect ht hplace⟩
    | _ => exact absurd (by simp) hquiet

/-- An allowed step that succeeds does what `Moves` says. -/
theorem moves_of_result (hgood : c.timers.Good) {a : ClientStep} (ha : c.Allowed a)
    (hok : (c.step a).result = .ok c') : c.Moves a (c.step a).out c' := by
  cases a with
  | connect => exact Except.ok.inj hok ▸ .connect
  | startInLoop sockfd err =>
      obtain ⟨connector, conn, n, h, rfl⟩ := useConnector_ok hok
      exact .startInLoop h
  | connectorHandleWrite err named =>
      obtain ⟨connector, conn, n, h, rfl⟩ := useConnector_ok hok
      exact .connectorHandleWrite h
  | peerClose =>
      obtain ⟨conn, hconn, -⟩ := ha.2
      have hok' : (c.useConn (conn.handleRead .eof)).result = .ok c' := by
        rw [step, hconn] at hok
        exact hok
      obtain ⟨conn', n, rfl⟩ := heard_useConn hok'
      exact .peerClose
  | processPong k => exact Except.ok.inj hok ▸ .processPong
  | onConnected p now clock =>
      obtain ⟨out, c₁, heq, hmoves⟩ := notifies_moves hgood clock ha
      rw [heq] at hok ⊢
      exact Except.ok.inj hok ▸ hmoves
  | eventRead evtime expired reads clock =>
      cases hstep : c.timers.step (.eventRead evtime expired (restarts reads) clock) with
      | mk out result =>
          rw [step, eventRead_eq c evtime expired reads clock hstep] at hok ⊢
          cases result with
          | error e => cases hok
          | ok timers =>
              obtain rfl := Except.ok.inj hok
              have hresult := congrArg Traced.result hstep
              have hallowed : c.timers.Allowed (.eventRead evtime expired (restarts reads) clock) := trivial
              obtain ⟨out', hstep', hmoves⟩ := TimerUse.moves_of_result hgood hallowed hresult
              obtain rfl : out = out' := congrArg Traced.out (hstep.symm.trans hstep')
              exact .eventRead hmoves
  | timerHandle i =>
      obtain ⟨out, c₁, heq, hmoves⟩ := handles_moves ha
      rw [heq] at hok ⊢
      exact Except.ok.inj hok ▸ hmoves

/-- The timers stay in order. -/
theorem Moves.good {a : ClientStep} {out : List ClientEvent} (h : c.Moves a out c')
    (hgood : c.timers.Good) : c'.timers.Good := by
  cases h with
  | startTimer _ hfree hadd => exact (hgood.constructed hfree ..).moves hadd
  | eventRead h => exact hgood.moves h
  | _ => exact hgood

/-- The loop begins a call when it has finished the one before. -/
theorem Moves.inTurn {a : ClientStep} {out : List ClientEvent} (h : c.Moves a out c')
    (ha : c.Allowed a) (hturn : c.sender.InTurn) : c'.sender.InTurn := by
  cases h with
  | connect | processPong | reconnect => exact hturn
  | startInLoop | connectorHandleWrite | peerClose => exact HeartbeatSender.inTurn_notified ha.1 _
  | onConnected h => exact h.inTurn hturn
  | startTimer h =>
      have hnotifies : c.sender.Notifies 0 _ _ := .startTimer h
      exact hnotifies.inTurn hturn
  | @eventRead _ _ _ _ out =>
      obtain ⟨n, hn⟩ := HeartbeatSender.foldl_onTimer c.own out c.sender
      rw [hn]
      exact hturn
  | timerHandle h =>
      rw [HeartbeatSender.InTurn, h.callbacks_eq]
      exact hturn

/-! ## What a step emits -/

/-- Events of the connector come from its functions, and calls of `connect` from a thread that is about
to make one. -/
def Emits (c : HeartbeatClient) (a : ClientStep) : ClientEvent → Prop
  | .connector e =>
      (∃ sockfd err, a = .startInLoop sockfd err ∧ e ∈ (c.connector.startInLoop sockfd err).out) ∨
      ∃ err named, a = .connectorHandleWrite err named ∧ e ∈ (c.connector.handleWrite err).out
  | .sender (.connect answered) => ∃ i t, a = .timerHandle i ∧ c.sender.threads[i]? = some t ∧
      t.place = .connect ∧ answered = t.answered
  | .sender .ping | .sender (.runAt _) | .conn _ | .timer _ => True

theorem out_useConn {x : Conn Connection} {o : ClientEvent} (ho : o ∈ (c.useConn x).out) :
    ∃ e, o = .conn e := by
  rw [useConn_eq] at ho
  obtain ⟨e, -, rfl⟩ := List.mem_map.mp ho
  exact ⟨e, rfl⟩

theorem out_establishConnection (named : Bool) :
    ∀ o ∈ (c.establishConnection named).out, ∃ e, o = .conn e := by
  refine forall_out_bind ?_ fun _ _ => forall_out_bind ?_ fun _ _ o => out_useConn
  · cases named <;> exact fun o ho => absurd ho List.not_mem_nil
  · intro o ho
    rw [deleteConn] at ho
    split at ho
    · split at ho
      · exact out_useConn ho
      · cases ho
    · cases ho

theorem out_useConnector (named : Bool) (x : Connecting Connector) :
    ∀ o ∈ (c.useConnector named x).out, (∃ e ∈ x.out, o = .connector e) ∨ ∃ e, o = .conn e := by
  refine forall_out_bind ?_ fun _ _ _ ho => absurd ho List.not_mem_nil
  rw [out_handle]
  refine forall_out_foldlM (fun s e he => forall_out_bind ?_ ?_) c
  · intro o ho
    exact .inl ⟨e, he, List.mem_singleton.mp ho⟩
  · intro _ _
    cases e with
    | newConnCreateCallback sockfd => exact fun o ho => .inr (out_establishConnection named o ho)
    | startInLoop | socket | close | runDelay | cancelTimer => exact fun o ho => absurd ho List.not_mem_nil

theorem emits_step (hgood : c.timers.Good) {a : ClientStep} (ha : c.Allowed a) :
    ∀ o ∈ (c.step a).out, c.Emits a o := by
  intro o ho
  cases a with
  | connect | processPong => cases ho
  | startInLoop sockfd err =>
      rcases out_useConnector false _ o ho with ⟨e, he, rfl⟩ | ⟨e, rfl⟩
      · exact .inl ⟨sockfd, err, rfl, he⟩
      · trivial
  | connectorHandleWrite err named =>
      rcases out_useConnector named _ o ho with ⟨e, he, rfl⟩ | ⟨e, rfl⟩
      · exact .inr ⟨err, named, rfl, he⟩
      · trivial
  | peerClose =>
      rw [step] at ho
      split at ho
      · obtain ⟨e, rfl⟩ := out_useConn ho
        trivial
      · cases ho
  | onConnected p now clock =>
      obtain ⟨out, c₁, heq, hmoves⟩ := notifies_moves hgood clock ha
      rw [heq] at ho
      cases hmoves with
      | onConnected h =>
          obtain ⟨e, he, rfl⟩ := List.mem_map.mp ho
          cases e with
          | connect answered => exact absurd he (h.connect_notMem answered)
          | ping | runAt => trivial
      | startTimer =>
          rw [List.mem_singleton.mp ho]
          trivial
  | eventRead evtime expired reads clock =>
      rw [step, eventRead_eq c evtime expired reads clock rfl] at ho
      obtain ⟨e, -, rfl⟩ := List.mem_map.mp ho
      trivial
  | timerHandle i =>
      obtain ⟨out, c₁, heq, hmoves⟩ := handles_moves ha
      rw [heq] at ho
      cases hmoves with
      | timerHandle h hquiet =>
          obtain ⟨e, he, rfl⟩ := List.mem_map.mp ho
          cases e with
          | connect b => exact absurd he (hquiet b)
          | ping | runAt => trivial
      | reconnect ht hplace =>
          rw [List.mem_singleton.mp ho]
          exact ⟨i, _, rfl, ht, hplace, rfl⟩

/-! ## A connection is established -/

theorem free_two (h : c.timers.queue.heap 2 = none) : c.timers.Free 2 := ⟨by decide, by decide, h⟩

end HeartbeatClient

/-- The heartbeat is started when the connection is established, with a timer at the address 2. -/
def establishRun : List ClientStep :=
  [.connect, .startInLoop 5 .zero, .connectorHandleWrite 0 true, .onConnected 2 1 ⟨0, 1⟩,
    .onConnected 2 1 ⟨0, 1⟩, .onConnected 2 1 ⟨0, 1⟩, .onConnected 2 1 ⟨0, 1⟩, .onConnected 2 1 ⟨0, 1⟩]

end WebsocketCpp
