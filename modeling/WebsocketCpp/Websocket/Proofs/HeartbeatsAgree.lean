import Mathlib.Tactic.Linarith
import WebsocketCpp.Websocket.Proofs.HeartbeatTimer
import WebsocketCpp.Websocket.Proofs.LastSeen
import WebsocketCpp.Websocket.Proofs.SpuriousReconnect

/-!
# The two heartbeats agree

`heartbeatsAgree`: when pings and pongs are in time, the client does not connect again and the server does
not close the connection. At most 14 seconds lie between two pings, whichever state the timer reads. The
server keeps 32 bits of the seconds, so that its clock has to stay below 2^32 seconds.
-/

namespace WebsocketCpp

open Traced
open Timestamp (csMicrosecondsPerSecond)

/-- The client does not connect, and the server does not close the connection. -/
def HeartbeatsAgree (conn : Nat) (s : TimedHeartbeat) (steps : List TimedStep) : Prop :=
  (∀ answered, .client (.sender (.connect answered)) ∉ ((timedMachine conn).run s steps).out) ∧
    .recv (.forceClose conn) ∉ ((timedMachine conn).run s steps).out

theorem HeartState.nextTimestamp_le {hs : HeartState} (h : hs = .eWaitPing ∨ hs = .eWaitPong)
    (now : Timestamp) : now + 5 * csMicrosecondsPerSecond ≤ hs.nextTimestamp now ∧
      hs.nextTimestamp now ≤ now + 10 * csMicrosecondsPerSecond := by
  have hpos : (0 : Int) < csMicrosecondsPerSecond := by decide
  rcases h with rfl | rfl <;> simp only [nextTimestamp, Timestamp.addSeconds] <;> constructor <;> linarith

/-- The server waits for more than 14 seconds. -/
theorem Timestamp.seconds_le {t now : Timestamp} (hpos : 0 ≤ t) (hle : t ≤ now)
    (h : now ≤ t + 14 * csMicrosecondsPerSecond) : now.seconds - 15 ≤ t.seconds := by
  rw [seconds, seconds, Int.tdiv_eq_ediv_of_nonneg hpos, Int.tdiv_eq_ediv_of_nonneg (hpos.trans hle)]
  simp only [Timestamp, csMicrosecondsPerSecond] at *
  omega

namespace HeartbeatSender

variable {s s' : HeartbeatSender} {i : Nat} {out : List SenderEvent}

/-- A thread has yet to send its ping. -/
def Unsent (s : HeartbeatSender) : Prop :=
  ∃ t ∈ s.threads, t.place = .testWaitPing ∨ t.place = .sendHeartbeat

/-- One thread at most, on its way to the ping or to the state. -/
structure Running (s : HeartbeatSender) : Prop where
  state : s.state = .eWaitPing ∨ s.state = .eWaitPong
  threads : s.threads = [] ∨ ∃ t, s.threads = [t] ∧ (t.place = .testWaitPing ∧ s.state = .eWaitPing ∨
    t.place = .sendHeartbeat ∨ t.place = .setWaitPong)

theorem Running.thread (h : s.Running) {t : HandleThread} (ht : s.threads[i]? = some t) :
    s.threads = [t] ∧ i = 0 ∧ (t.place = .testWaitPing ∧ s.state = .eWaitPing ∨
      t.place = .sendHeartbeat ∨ t.place = .setWaitPong) := by
  rcases h.threads with hnil | ⟨t', hone, hplace⟩
  · rw [hnil] at ht
    cases ht
  · rw [hone] at ht ⊢
    rcases List.getElem?_eq_some_iff.mp ht with ⟨hi, rfl⟩
    obtain rfl : i = 0 := Nat.lt_one_iff.mp hi
    exact ⟨rfl, rfl, hplace⟩

/-- The thread does not connect. -/
theorem Running.place_ne (h : s.Running) {t : HandleThread} (ht : s.threads[i]? = some t) :
    t.place ≠ .connect := by
  obtain ⟨-, -, ⟨hplace, -⟩ | hplace | hplace⟩ := h.thread ht <;> rw [hplace] <;> nofun

/-- The thread goes on: it sends its ping, or has sent it before if it has sent it after. -/
theorem Running.handles (h : s.Running) (hhandles : s.Handles i out s') : s'.Running ∧
    (s'.sent = s.sent + 1 ∨ s'.sent = s.sent ∧ (s.Unsent → s'.Unsent)) := by
  cases hhandles with
  | @ping t ht hplace hstate =>
      rcases h.thread ht with ⟨hone, rfl, -⟩
      have hmoved : (s.move 0 t .sendHeartbeat).threads = [{ t with place := .sendHeartbeat }] := by
        rw [move, hone]
        rfl
      have hunsent : (s.move 0 t .sendHeartbeat).Unsent :=
        ⟨_, hmoved ▸ List.mem_singleton_self _, .inr rfl⟩
      exact ⟨⟨h.state, .inr ⟨_, hmoved, .inr (.inl rfl)⟩⟩, .inr ⟨rfl, fun _ => hunsent⟩⟩
  | pass ht hplace hstate =>
      rcases h.thread ht with ⟨-, -, ⟨-, hping⟩ | hp | hp⟩
      · exact absurd hping hstate
      · cases hp.symm.trans hplace
      · cases hp.symm.trans hplace
  | @sendHeartbeat t ht hplace =>
      rcases h.thread ht with ⟨hone, rfl, -⟩
      refine ⟨⟨h.state, .inr ⟨{ t with place := .setWaitPong }, ?_, .inr (.inr rfl)⟩⟩, .inl rfl⟩
      change s.threads.set 0 _ = _
      rw [hone]
      rfl
  | @setWaitPong t ht hplace =>
      rcases h.thread ht with ⟨hone, rfl, -⟩
      have hunsent : ¬s.Unsent := by
        rintro ⟨t', ht', hplace'⟩
        rw [hone, List.mem_singleton] at ht'
        rw [ht', hplace] at hplace'
        rcases hplace' with hp | hp <;> cases hp
      refine ⟨⟨.inr rfl, .inl ?_⟩, .inr ⟨rfl, fun hun => absurd hun hunsent⟩⟩
      change s.threads.eraseIdx 0 = []
      rw [hone]
      rfl
  | missed ht hplace | finish ht hplace | connect ht hplace | setReconnect ht hplace =>
      obtain ⟨-, -, ⟨hp, -⟩ | hp | hp⟩ := h.thread ht <;> cases hp.symm.trans hplace

end HeartbeatSender

/-- What the client does since `start` was called, or since the time for which the timer was set that has
fired last. -/
inductive HeartbeatClient.Phase (c : HeartbeatClient) (since : Timestamp) : Prop where
  | startSet (hcall : c.sender.callbacks = [.startSet]) (hthreads : c.sender.threads = [])
      (hown : c.own = [])
  | startTimer (hcall : c.sender.callbacks = [.startTimer]) (hthreads : c.sender.threads = [])
      (hown : c.own = []) (hstate : c.sender.state = .eWaitPong)
  | running (hcall : c.sender.callbacks = []) {e : TimerEntity} (hscheduled : c.Scheduled e)
      (hlow : since + 5 * csMicrosecondsPerSecond ≤ e.first)
      (hhigh : e.first ≤ since + 12 * csMicrosecondsPerSecond) (hrunning : c.sender.Running)

namespace TimedHeartbeat

variable {conn : Nat} {s s' : TimedHeartbeat} {m : LastSeen}

/-- Before `start`: the server may have seen the connection. -/
structure Before (conn : Nat) (s : TimedHeartbeat) (m : LastSeen) : Prop where
  callbacks : s.client.sender.callbacks = [.startSend]
  threads : s.client.sender.threads = []
  own : s.client.own = []
  delivered : s.delivered = s.client.sender.sent
  seen : ∀ t, m conn = some t → ∃ first, s.first = some first ∧ first ≤ t

/-- After `start`: the server has seen the connection in the last 12 seconds before `since`, and since
then if the ping has arrived. -/
structure After (conn : Nat) (s : TimedHeartbeat) (m : LastSeen) (since : Timestamp) : Prop where
  phase : s.client.Phase since
  le : since ≤ s.time
  seen : ∀ t, m conn = some t → since ≤ t + 12 * csMicrosecondsPerSecond
  pinged : ¬s.delivered < s.client.sender.sent → ¬s.client.sender.Unsent → ∀ t, m conn = some t → since ≤ t

/-- What holds in every run. `m` is what the server's list stands for. -/
structure Agreeing (conn : Nat) (s : TimedHeartbeat) (m : LastSeen) : Prop where
  client : s.client.SettledClient
  tracks : Tracks s.recv.connList m
  delivered : s.delivered ≤ s.client.sender.sent
  time : 0 ≤ s.time
  seen : ∀ t, m conn = some t → 0 ≤ t ∧ t ≤ s.time
  first : ∀ first, s.first = some first → first ≤ s.time
  before : s.since = none → s.Before conn m
  after : ∀ since, s.since = some since → s.After conn m since

/-- Whenever something happens, the server has seen the connection in the last 14 seconds. -/
theorem Agreeing.now_le (h : s.Agreeing conn m) {now : Timestamp} (hin : s.InTime now) {t : Timestamp}
    (ht : m conn = some t) : now ≤ t + 14 * csMicrosecondsPerSecond := by
  have hdelay : csDelay = 2 * csMicrosecondsPerSecond := rfl
  have hpos : (0 : Int) < csMicrosecondsPerSecond := by decide
  cases hsince : s.since with
  | none =>
      rcases (h.before hsince).seen t ht with ⟨first, hfirst, hle⟩
      have hnow := hin.first hsince first hfirst
      linarith
  | some since =>
      rcases h.after since hsince with ⟨hphase, -, hseen, hpinged⟩
      by_cases hopen : s.Open
      · have hnow := hin.sent since hsince hopen
        have hlast := hseen t ht
        linarith
      · rcases not_or.mp hopen with ⟨hdelivered, hrest⟩
        rcases not_or.mp hrest with ⟨hcalls, hunsent⟩
        have hlast := hpinged hdelivered hunsent t ht
        cases hphase with
        | startSet hcall | startTimer hcall => exact absurd (by rw [hcall]; nofun) hcalls
        | running _ hscheduled _ hhigh =>
            rcases hscheduled.mem with ⟨hmem, hown⟩
            have hnow := hin.read (by rw [hsince]; nofun) hopen _ hmem hown
            linarith

/-- The server finds nothing to close. -/
theorem Agreeing.not_overdue (h : s.Agreeing conn m) {now : Timestamp} (hin : s.InTime now) :
    ¬m.Overdue now conn := by
  rintro ⟨t, ht, hlt⟩
  rcases h.seen t ht with ⟨hpos, hle⟩
  have hsec := Timestamp.seconds_le hpos (hle.trans hin.le) (h.now_le hin ht)
  omega

/-! ## The server -/

theorem firstAfter_le (h : s.Agreeing conn m) {now : Timestamp} (hin : s.InTime now) (a : RecvStep)
    (ha : a.now = now) : ∀ first, s.firstAfter conn a = some first → first ≤ now := by
  intro first hfirst
  have hold : s.first = some first → first ≤ now := fun heq => (h.first first heq).trans hin.le
  cases a with
  | timerCallback => exact hold hfirst
  | updateConn header conn' t call =>
      obtain rfl : t = now := ha
      rw [firstAfter] at hfirst
      split at hfirst
      · cases hs : s.first with
        | none =>
            rw [hs] at hfirst
            exact le_of_eq (Option.some.inj hfirst).symm
        | some first' =>
            rw [hs] at hfirst
            exact hold (hs.trans hfirst)
      · exact hold hfirst

/-- The server takes down the time of a message. -/
def noted (s : TimedHeartbeat) (conn : Nat) (header : WSHead) (conn' : Nat) (now : Timestamp)
    (call : FrameCall) (delivered : Nat) : TimedHeartbeat :=
  { s with
    recv := ⟨touch conn' now.stamp s.recv.connList⟩, time := now
    first := s.firstAfter conn (.updateConn header conn' now call), delivered := delivered }

section UpdateConn

variable {now : Timestamp} {header : WSHead} {conn' : Nat} {call : FrameCall} {delivered : Nat}

theorem Agreeing.before_noted (h : s.Agreeing conn m) (hin : s.InTime now) (hsince : s.since = none)
    (hle : s.delivered ≤ delivered) (hsent : delivered ≤ s.client.sender.sent) :
    (s.noted conn header conn' now call delivered).Before conn (m.updateConn conn' now) := by
  rcases h.before hsince with ⟨hcalls, hthreads, hown, hdelivered, hseen⟩
  refine ⟨hcalls, hthreads, hown, le_antisymm hsent (hdelivered ▸ hle), ?_⟩
  intro t ht
  change ∃ first, s.firstAfter conn (.updateConn header conn' now call) = some first ∧ first ≤ t
  rw [firstAfter]
  rcases Heap.update_some_iff.mp ht with ⟨rfl, rfl⟩ | ⟨hne, ht⟩
  · rw [if_pos rfl]
    cases hs : s.first with
    | none => exact ⟨t, rfl, le_refl _⟩
    | some first => exact ⟨first, rfl, (h.first first hs).trans hin.le⟩
  · rw [if_neg (Ne.symm hne)]
    exact hseen t ht

theorem Agreeing.after_noted (h : s.Agreeing conn m) (hin : s.InTime now) {since : Timestamp}
    (hsince : s.since = some since) (hping : conn' ≠ conn → delivered = s.delivered) :
    (s.noted conn header conn' now call delivered).After conn (m.updateConn conn' now) since := by
  rcases h.after since hsince with ⟨hphase, hle, hseen, hpinged⟩
  have hbefore : since ≤ now := hle.trans hin.le
  have hpos : (0 : Int) < csMicrosecondsPerSecond := by decide
  refine ⟨hphase, hbefore, ?_, ?_⟩
  · intro t ht
    rcases Heap.update_some_iff.mp ht with ⟨-, rfl⟩ | ⟨-, ht⟩
    · linarith
    · exact hseen t ht
  · intro hdelivered hunsent t ht
    rcases Heap.update_some_iff.mp ht with ⟨-, rfl⟩ | ⟨hne, ht⟩
    · exact hbefore
    · exact hpinged (hping (Ne.symm hne) ▸ hdelivered) hunsent t ht

/-- A ping is one more that has been delivered. -/
theorem Agreeing.updateConn (h : s.Agreeing conn m) (hin : s.InTime now) (hlt : now.seconds < 2 ^ 32)
    (header : WSHead) (conn' : Nat) (call : FrameCall) (hle : s.delivered ≤ delivered)
    (hsent : delivered ≤ s.client.sender.sent) (hping : conn' ≠ conn → delivered = s.delivered) :
    (s.noted conn header conn' now call delivered).Agreeing conn (m.updateConn conn' now) := by
  have hnow : 0 ≤ now := h.time.trans hin.le
  refine ⟨h.client, HeartbeatRecv.tracks_updateConn h.tracks conn' hnow hlt, hsent, hnow, ?_,
    firstAfter_le h hin (.updateConn header conn' now call) rfl, fun hsince => h.before_noted hin hsince
      hle hsent, fun since hsince => h.after_noted hin hsince hping⟩
  intro t ht
  rcases Heap.update_some_iff.mp ht with ⟨-, rfl⟩ | ⟨-, ht⟩
  · exact ⟨hnow, le_refl _⟩
  · rcases h.seen t ht with ⟨hpos, htime⟩
    exact ⟨hpos, htime.trans hin.le⟩

end UpdateConn

theorem Agreeing.timerCallback (h : s.Agreeing conn m) {now : Timestamp} (hin : s.InTime now) :
    Agreeing conn { s with
      recv := ⟨s.recv.connList.filter fun entry => ¬HeartbeatRecv.expired now entry⟩, time := now
      first := s.firstAfter conn (.timerCallback now) } (m.timerCallback now) := by
  have hkept : ∀ t, m.timerCallback now conn = some t → m conn = some t := by
    intro t ht
    rw [LastSeen.timerCallback] at ht
    split at ht
    · cases ht
    · exact ht
  refine ⟨h.client, HeartbeatRecv.tracks_timerCallback h.tracks now, h.delivered, h.time.trans hin.le,
    ?_, firstAfter_le h hin (.timerCallback now) rfl, ?_,
    ?_⟩
  · intro t ht
    rcases h.seen t (hkept t ht) with ⟨hpos, htime⟩
    exact ⟨hpos, htime.trans hin.le⟩
  · intro hsince
    rcases h.before hsince with ⟨hcalls, hthreads, hown, hdelivered, hseen⟩
    exact ⟨hcalls, hthreads, hown, hdelivered, fun t ht => hseen t (hkept t ht)⟩
  · intro since hsince
    rcases h.after since hsince with ⟨hphase, hle, hseen, hpinged⟩
    exact ⟨hphase, hle.trans hin.le, fun t ht => hseen t (hkept t ht),
      fun hdelivered hunsent t ht => hpinged hdelivered hunsent t (hkept t ht)⟩

/-! ## The client -/

/-- The client and the time have changed, and a message may have been sent. -/
theorem Agreeing.client_moves (h : s.Agreeing conn m) {now : Timestamp} (hin : s.InTime now)
    {client : HeartbeatClient} (hsettled : client.SettledClient)
    (hsent : s.client.sender.sent ≤ client.sender.sent) {since : Timestamp}
    (hafter : After conn { s with client := client, time := now, since := some since } m since) :
    Agreeing conn { s with client := client, time := now, since := some since } m where
  client := hsettled
  tracks := h.tracks
  delivered := h.delivered.trans hsent
  time := h.time.trans hin.le
  seen t ht := ⟨(h.seen t ht).1, (h.seen t ht).2.trans hin.le⟩
  first first hfirst := (h.first first hfirst).trans hin.le
  before := nofun
  after _ hsince := Option.some.inj hsince ▸ hafter

/-- What a step of the client leaves. -/
structure ClientMoved (conn : Nat) (s : TimedHeartbeat) (m : LastSeen) (now : Timestamp)
    (client : HeartbeatClient) (since : Timestamp) : Prop where
  sent : s.client.sender.sent ≤ client.sender.sent
  after : After conn { s with client := client, time := now, since := some since } m since

variable {now since : Timestamp} {a : ClientStep} {out : List ClientEvent} {client : HeartbeatClient}

/-- In `onConnected` the loop does nothing else. -/
theorem onConnected_of_busy {place : NotifyPlace} (hcall : s.client.sender.callbacks = [place])
    (hthreads : s.client.sender.threads = []) (ha : s.client.Allowed a) (hca : s.ClientAllowed now a) :
    ∃ p clock, a = .onConnected p now clock := by
  have hbusy : ¬s.client.Idle := fun hidle => by cases hcall.symm.trans hidle
  cases a with
  | onConnected p t clock => exact ⟨p, clock, by rw [show t = now from hca]⟩
  | connect | startInLoop | connectorHandleWrite | peerClose => exact hca.elim
  | processPong | eventRead => exact absurd ha.1 hbusy
  | timerHandle i =>
      have hi : i < s.client.sender.threads.length := ha
      rw [hthreads] at hi
      exact absurd hi (Nat.not_lt_zero i)

/-- `start` is called. -/
theorem Agreeing.step_before (h : s.Agreeing conn m) (hin : s.InTime now) (hsince : s.since = none)
    (ha : s.client.Allowed a) (hca : s.ClientAllowed now a) (hmoves : s.client.Moves a out client) :
    s.sinceAfter now out = some now ∧ s.ClientMoved conn m now client now := by
  rcases h.before hsince with ⟨hcall, hthreads, hown, hdelivered, hseen⟩
  rcases onConnected_of_busy hcall hthreads ha hca with ⟨p, clock, rfl⟩
  refine ⟨if_pos (by rw [hcall]; rfl), ?_⟩
  cases hmoves with
  | startTimer hplace => cases hcall.symm.trans hplace
  | onConnected hnotifies hquiet =>
      cases hnotifies with
      | startSend hplace =>
          obtain rfl : _ = [] := (List.cons.inj (hplace.symm.trans hcall)).2
          refine ⟨Nat.le_succ _, .startSet rfl hthreads hown, le_refl now, ?_,
            fun hnot => absurd (Nat.lt_succ_of_le (le_of_eq hdelivered)) hnot⟩
          intro t ht
          rcases hseen t ht with ⟨first, hfirst, hle⟩
          have hnow := hin.first hsince first hfirst
          have hpos : (0 : Int) < csMicrosecondsPerSecond := by decide
          rw [csDelay] at hnow
          linarith
      | testReconnect hplace | setWaitPing hplace | sendHeartbeat hplace | start hplace
      | finish hplace | startSet hplace | startTimer hplace => cases hcall.symm.trans hplace

/-- Steps that are no fires leave `since`. -/
theorem sinceAfter_eq (hsince : s.since = some since) {place : Option NotifyPlace}
    (hcall : s.client.sender.callbacks.head? = place) (hplace : place ≠ some .startSend)
    (hfired : s.client.fired out = none) : s.sinceAfter now out = some since := by
  rw [sinceAfter, hcall, if_neg hplace, hfired, hsince]
  rfl

theorem After.startSet (h : s.After conn m since) (hin : s.InTime now) (hsince : s.since = some since)
    (hcall : s.client.sender.callbacks = [.startSet]) (hthreads : s.client.sender.threads = [])
    (hown : s.client.own = []) (ha : s.client.Allowed a) (hca : s.ClientAllowed now a)
    (hmoves : s.client.Moves a out client) :
    s.sinceAfter now out = some since ∧ s.ClientMoved conn m now client since := by
  rcases onConnected_of_busy hcall hthreads ha hca with ⟨p, clock, rfl⟩
  cases hmoves with
  | startTimer hplace => cases hcall.symm.trans hplace
  | onConnected hnotifies hquiet =>
      cases hnotifies with
      | startSet hplace =>
          obtain rfl : _ = [] := (List.cons.inj (hplace.symm.trans hcall)).2
          refine ⟨sinceAfter_eq hsince (congrArg List.head? hcall) (by nofun)
            (HeartbeatClient.fired_eq_none nofun), le_refl _, .startTimer rfl hthreads hown rfl,
            h.le.trans hin.le, h.seen, h.pinged⟩
      | testReconnect hplace | setWaitPing hplace | sendHeartbeat hplace | start hplace
      | finish hplace | startSend hplace | startTimer hplace => cases hcall.symm.trans hplace

theorem After.startTimer (h : s.After conn m since) (hgood : s.client.timers.Good) (hin : s.InTime now)
    (hsince : s.since = some since) (hcall : s.client.sender.callbacks = [.startTimer])
    (hthreads : s.client.sender.threads = []) (hown : s.client.own = [])
    (hstate : s.client.sender.state = .eWaitPong) (ha : s.client.Allowed a)
    (hca : s.ClientAllowed now a) (hmoves : s.client.Moves a out client) :
    s.sinceAfter now out = some since ∧ s.ClientMoved conn m now client since := by
  rcases onConnected_of_busy hcall hthreads ha hca with ⟨p, clock, rfl⟩
  cases hmoves with
  | onConnected hnotifies hquiet =>
      cases hnotifies with
      | startTimer hplace => exact absurd (List.mem_singleton_self _) (hquiet _)
      | testReconnect hplace | setWaitPing hplace | sendHeartbeat hplace | start hplace
      | finish hplace | startSend hplace | startSet hplace => cases hcall.symm.trans hplace
  | startTimer hplace hfree hadd =>
      obtain rfl : _ = [] := (List.cons.inj (hplace.symm.trans hcall)).2
      refine ⟨sinceAfter_eq hsince (congrArg List.head? hcall) (by nofun)
        (HeartbeatClient.fired_eq_none (by simp)), le_refl _, ?_, h.le.trans hin.le, h.seen, h.pinged⟩
      have hscheduled := HeartbeatClient.scheduled_startTimer hgood hfree hadd
      have hopen : s.Open := .inr (.inl (by rw [hcall]; nofun))
      have hnow := hin.sent since hsince hopen
      have hbefore := h.le.trans hin.le
      rcases HeartState.nextTimestamp_le (.inr hstate) now with ⟨hlow, hhigh⟩
      have hpos : (0 : Int) < csMicrosecondsPerSecond := by decide
      rw [csDelay] at hnow
      rw [hown]
      refine .running rfl (hscheduled.congr rfl rfl rfl) ?_ ?_ ⟨.inr hstate, .inl hthreads⟩
      · linarith
      · linarith

/-- While the heartbeat runs, `since` and the timer are those of the last fire. -/
structure Waiting (s : TimedHeartbeat) (since : Timestamp) (e : TimerEntity) : Prop where
  callbacks : s.client.sender.callbacks = []
  scheduled : s.client.Scheduled e
  low : since + 5 * csMicrosecondsPerSecond ≤ e.first
  high : e.first ≤ since + 12 * csMicrosecondsPerSecond
  running : s.client.sender.Running

theorem Waiting.sinceAfter_eq {e : TimerEntity} (h : s.Waiting since e) (hsince : s.since = some since)
    (hfired : s.client.fired out = none) : s.sinceAfter now out = some since :=
  TimedHeartbeat.sinceAfter_eq hsince (congrArg List.head? h.callbacks) (by nofun) hfired

/-- The thread takes a step. -/
theorem After.timerHandle (h : s.After conn m since) (hin : s.InTime now) (hsince : s.since = some since)
    {e : TimerEntity} (hwaiting : s.Waiting since e) (hdelivered : s.delivered ≤ s.client.sender.sent)
    {i : Nat} (hmoves : s.client.Moves (.timerHandle i) out client) :
    s.sinceAfter now out = some since ∧ s.ClientMoved conn m now client since := by
  cases hmoves with
  | reconnect ht hplace => exact absurd hplace (hwaiting.running.place_ne ht)
  | timerHandle hhandles hquiet =>
      rcases hwaiting.running.handles hhandles with ⟨hrunning, hsent⟩
      have hcalls := hhandles.callbacks_eq.trans hwaiting.callbacks
      refine ⟨hwaiting.sinceAfter_eq hsince (HeartbeatClient.fired_eq_none (by simp)), ?_, .running hcalls
        (hwaiting.scheduled.congr rfl rfl rfl) hwaiting.low hwaiting.high hrunning, h.le.trans hin.le,
        h.seen, fun hnot hunsent => ?_⟩
      · rcases hsent with heq | ⟨heq, -⟩
        · exact heq ▸ Nat.le_succ _
        · exact le_of_eq heq.symm
      · rcases hsent with heq | ⟨heq, hkept⟩
        · exact absurd (by rw [heq]; exact Nat.lt_succ_of_le hdelivered) hnot
        · exact h.pinged (fun hlt => hnot (heq ▸ hlt)) fun hun => hunsent (hkept hun)

/-- A pong is processed. -/
theorem After.processPong (h : s.After conn m since) (hin : s.InTime now) (hsince : s.since = some since)
    {e : TimerEntity} (hwaiting : s.Waiting since e) {k : Nat}
    (hmoves : s.client.Moves (.processPong k) out client) :
    s.sinceAfter now out = some since ∧ s.ClientMoved conn m now client since := by
  cases hmoves with
  | processPong =>
      refine ⟨hwaiting.sinceAfter_eq hsince (HeartbeatClient.fired_eq_none nofun), le_refl _,
        .running hwaiting.callbacks (hwaiting.scheduled.congr rfl rfl rfl) hwaiting.low hwaiting.high
          ⟨.inl rfl, ?_⟩, h.le.trans hin.le, h.seen, h.pinged⟩
      rcases hwaiting.running.threads with hnil | ⟨t, hone, hplace⟩
      · exact .inl hnil
      · exact .inr ⟨t, hone, hplace.imp_left fun hp => ⟨hp.1, rfl⟩⟩

/-- When the timer fires, the last ping has been sent and answered, and no thread is left. -/
theorem Agreeing.settled_of_fires (h : s.Agreeing conn m) (hin : s.InTime now)
    (hsince : s.since = some since) {e : TimerEntity} (hwaiting : s.Waiting since e)
    (hdue : e.first ≤ now) (hanswered : s.client.sender.answered = s.client.sender.sent) :
    ¬s.Open ∧ s.client.sender.threads = [] ∧ s.client.sender.state = .eWaitPing := by
  have hclosed : ¬s.Open := by
    intro hopen
    have hnow := hin.sent since hsince hopen
    have hlow := hwaiting.low
    have hpos : (0 : Int) < csMicrosecondsPerSecond := by decide
    rw [csDelay] at hnow
    linarith
  have hunsent : ¬s.client.sender.Unsent := (not_or.mp (not_or.mp hclosed).2).2
  have hsettled := h.client.settled
  refine ⟨hclosed, ?_, hwaiting.running.state.resolve_right (hsettled.state hanswered)⟩
  apply hwaiting.running.threads.resolve_right
  rintro ⟨t, hone, hplace⟩
  have ht : t ∈ s.client.sender.threads := by
    rw [hone]
    exact List.mem_singleton_self t
  rcases hplace with ⟨hplace, -⟩ | hplace | hplace
  · exact hunsent ⟨t, ht, .inl hplace⟩
  · exact hunsent ⟨t, ht, .inr hplace⟩
  · exact hsettled.setting hanswered t ht hplace

/-- The timer fires. The deadlines of the next round are reckoned from the time for which it was set. -/
theorem Agreeing.fires (h : s.Agreeing conn m) (hin : s.InTime now) (hsince : s.since = some since)
    {e : TimerEntity} (hwaiting : s.Waiting since e) {evtime : Timestamp} {expired : Bool}
    {reads : Nat → HeartState × Timestamp} {clock : Clock}
    (hca : s.ClientAllowed now (.eventRead evtime expired reads clock)) (hdue : e.first ≤ evtime)
    {timers : TimerUse} (hscheduled : ({ s.client with timers := timers } : HeartbeatClient).Scheduled
      ⟨(reads e.second).1.nextTimestamp (reads e.second).2, e.second⟩) :
    s.ClientMoved conn m now { s.client with sender := s.client.sender.fire, timers := timers } e.first := by
  have hnow : e.first ≤ now := hdue.trans hca.1
  rcases hwaiting.scheduled.mem with ⟨hmem, hown⟩
  rcases hca.2 e hmem hown hdue with ⟨hanswered, hread, hstart, hend⟩
  rcases h.settled_of_fires hin hsince hwaiting hnow hanswered with ⟨hclosed, hthreads, hstate⟩
  rcases not_or.mp hclosed with ⟨hdelivered, hrest⟩
  have hone : s.client.sender.fire.threads =
      [⟨.testWaitPing, s.client.sender.answered = s.client.sender.sent⟩] := by
    rw [HeartbeatSender.fire, hthreads]
    rfl
  have hunsent : s.client.sender.fire.Unsent := ⟨_, hone ▸ List.mem_singleton_self _, .inl rfl⟩
  have hpos : (0 : Int) < csMicrosecondsPerSecond := by decide
  obtain ⟨hlow, hhigh⟩ := HeartState.nextTimestamp_le (hread.imp_left (·.trans hstate)) (reads e.second).2
  have hlast := hwaiting.high
  rw [csDelay] at hend
  refine ⟨le_refl _, .running hwaiting.callbacks (hscheduled.congr rfl rfl rfl) ?_ ?_
    ⟨.inl hstate, .inr ⟨_, hone, .inl ⟨rfl, hstate⟩⟩⟩, hnow, ?_, fun _ hnone => absurd hunsent hnone⟩
  · linarith
  · linarith
  · intro t ht
    have hseen := (h.after since hsince).pinged hdelivered (not_or.mp hrest).2 t ht
    linarith

theorem Agreeing.eventRead (h : s.Agreeing conn m) (hin : s.InTime now) (hsince : s.since = some since)
    {e : TimerEntity} (hwaiting : s.Waiting since e) {evtime : Timestamp} {expired : Bool}
    {reads : Nat → HeartState × Timestamp} {clock : Clock}
    (ha : s.client.Allowed (.eventRead evtime expired reads clock))
    (hca : s.ClientAllowed now (.eventRead evtime expired reads clock))
    (hmoves : s.client.Moves (.eventRead evtime expired reads clock) out client) :
    ∃ since', s.sinceAfter now out = some since' ∧ s.ClientMoved conn m now client since' := by
  have hafter := h.after since hsince
  cases hmoves with
  | @eventRead _ _ _ _ events timers hevent =>
      rcases HeartbeatClient.scheduled_eventRead h.client.good hwaiting.scheduled (ha.2 e.second) hevent with
        ⟨hsame, hfired, hscheduled⟩ | ⟨hdue, hfire, hfired, hscheduled⟩
      · refine ⟨since, hwaiting.sinceAfter_eq hsince hfired, ?_⟩
        rw [hsame]
        exact ⟨le_refl _, .running hwaiting.callbacks (hscheduled.congr rfl rfl rfl) hwaiting.low
          hwaiting.high hwaiting.running, hafter.le.trans hin.le, hafter.seen, hafter.pinged⟩
      · have hsinceAfter : s.sinceAfter now (events.map .timer) = some e.first := by
          rw [sinceAfter, hwaiting.callbacks, if_neg (by nofun), hfired]
          rfl
        refine ⟨e.first, hsinceAfter, ?_⟩
        rw [hfire]
        exact h.fires hin hsince hwaiting hca hdue hscheduled

/-- A step of the client. -/
theorem Agreeing.step_client (h : s.Agreeing conn m) (hin : s.InTime now) (ha : s.client.Allowed a)
    (hca : s.ClientAllowed now a) (hmoves : s.client.Moves a out client) :
    ∃ since, s.sinceAfter now out = some since ∧ s.ClientMoved conn m now client since := by
  cases hsince : s.since with
  | none => exact ⟨now, h.step_before hin hsince ha hca hmoves⟩
  | some since =>
      have hafter := h.after since hsince
      cases hafter.phase with
      | startSet hcall hthreads hown =>
          exact ⟨since, hafter.startSet hin hsince hcall hthreads hown ha hca hmoves⟩
      | startTimer hcall hthreads hown hstate =>
          exact ⟨since, hafter.startTimer h.client.good hin hsince hcall hthreads hown hstate ha hca hmoves⟩
      | running hcall hscheduled hlow hhigh hrunning =>
          have hwaiting : s.Waiting since _ := ⟨hcall, hscheduled, hlow, hhigh, hrunning⟩
          cases a with
          | connect | startInLoop | connectorHandleWrite | peerClose => exact hca.elim
          | onConnected => exact absurd hcall ha.1
          | processPong k => exact ⟨since, hafter.processPong hin hsince hwaiting hmoves⟩
          | eventRead => exact h.eventRead hin hsince hwaiting ha hca hmoves
          | timerHandle i => exact ⟨since, hafter.timerHandle hin hsince hwaiting h.delivered hmoves⟩

/-- There is no thread, or the only one is that of the last fire. -/
theorem Agreeing.threads (h : s.Agreeing conn m) : s.client.sender.threads = [] ∨
    s.client.sender.callbacks = [] ∧ s.client.sender.Running := by
  cases hsince : s.since with
  | none => exact .inl (h.before hsince).threads
  | some since =>
      cases (h.after since hsince).phase with
      | startSet _ hthreads | startTimer _ hthreads => exact .inl hthreads
      | running hcall _ _ _ hrunning => exact .inr ⟨hcall, hrunning⟩

/-- Pings, pongs and the state come in order. -/
theorem Agreeing.inOrder (h : s.Agreeing conn m) (hca : s.ClientAllowed now a) : s.client.InOrder a := by
  have hnone : s.client.sender.threads = [] → s.client.sender.NoneTesting := by
    intro hnil t ht
    rw [hnil] at ht
    cases ht
  cases a with
  | processPong k => exact fun _ => hca
  | onConnected p t clock =>
      intro rest hplace
      rcases h.threads with hnil | ⟨hcall, -⟩
      · exact hnone hnil
      · cases hcall.symm.trans hplace
  | timerHandle i =>
      intro t ht hplace
      rcases h.threads with hnil | ⟨-, hrunning⟩
      · exact hnone hnil
      · intro t' ht' _ htesting
        rw [(hrunning.thread ht).1, List.mem_singleton] at ht'
        rw [ht', hplace] at htesting
        exact htesting
  | connect | startInLoop | connectorHandleWrite | peerClose | eventRead => trivial

/-- No thread is about to connect. -/
theorem Agreeing.place_ne (h : s.Agreeing conn m) {i : Nat} {t : HandleThread}
    (ht : s.client.sender.threads[i]? = some t) : t.place ≠ .connect := by
  rcases h.threads with hnil | ⟨-, hrunning⟩
  · rw [hnil] at ht
    cases ht
  · exact hrunning.place_ne ht

/-! ## Runs -/

/-- The readings of the clock in `updateConn` are below 2^32 seconds. -/
def Below (_ : TimedHeartbeat) : TimedStep → Prop
  | .ping now _ => now.seconds < 2 ^ 32
  | .recv (.updateConn _ _ now _) => now.seconds < 2 ^ 32
  | .client _ _ | .recv (.timerCallback _) => True

/-- A message is taken down, and nothing is closed. -/
theorem useRecv_updateConn (s : TimedHeartbeat) (conn : Nat) (header : WSHead) (conn' : Nat)
    (now : Timestamp) {call : FrameCall} (hcall : call.len ≤ call.data.length) :
    ∃ out : List ServerEvent, s.useRecv conn (.updateConn header conn' now call) =
      ⟨out.map fun e => .recv (.serve e), .ok (s.noted conn header conn' now call s.delivered)⟩ := by
  rcases s.recv.updateConn_ok header conn' now.stamp hcall with ⟨out, ret, heq⟩
  refine ⟨out, ?_⟩
  rw [useRecv, HeartbeatRecv.step, heq]
  change Traced.mk ((((out.map RecvEvent.serve) ++ []).map TimedEvent.recv) ++ []) _ = _
  rw [List.append_nil, List.append_nil, List.map_map]
  rfl

theorem useRecv_timerCallback (s : TimedHeartbeat) (conn : Nat) (now : Timestamp) :
    s.useRecv conn (.timerCallback now) =
      ⟨(s.recv.connList.filter (HeartbeatRecv.expired now)).map fun entry => .recv (.forceClose entry.1),
        .ok { s with
          recv := ⟨s.recv.connList.filter fun entry => ¬HeartbeatRecv.expired now entry⟩, time := now
          first := s.firstAfter conn (.timerCallback now) }⟩ := by
  rw [useRecv, HeartbeatRecv.step, HeartbeatRecv.timerCallback_eq]
  change Traced.mk (((List.filter _ _).map _).map TimedEvent.recv ++ []) _ = _
  rw [List.append_nil, List.map_map]
  rfl

/-- What a run does not do. -/
def Quiet (conn : Nat) (o : TimedEvent) : Prop :=
  (∀ answered, o ≠ .client (.sender (.connect answered))) ∧ o ≠ .recv (.forceClose conn)

/-- What a step leaves and emits. -/
structure Keeps (conn : Nat) (x : TimedRun TimedHeartbeat) : Prop where
  agreeing : ∀ s', x.result = .ok s' → ∃ m, s'.Agreeing conn m
  quiet : ∀ o ∈ x.out, Quiet conn o

theorem Agreeing.keeps_client (h : s.Agreeing conn m) (hin : s.InTime now) (hallowed : s.client.Allowed a)
    (hca : s.ClientAllowed now a) : Keeps conn (s.step conn (.client now a)) where
  agreeing s' hok := by
    rcases result_bind hok with ⟨client, hclient, hs'⟩
    have hstep : (s.client.step a).result = .ok client := result_mapFault hclient
    rcases Except.ok.inj hs' with rfl
    have hmoves := HeartbeatClient.moves_of_result h.client.good hallowed hstep
    rcases h.step_client hin hallowed hca hmoves with ⟨since, hsince, hsent, hafter⟩
    rw [hsince]
    exact ⟨m, h.client_moves hin (h.client.moves hallowed (h.inOrder hca) hmoves) hsent hafter⟩
  quiet := by
    refine forall_out_bind ?_ fun _ _ _ ho => absurd ho List.not_mem_nil
    intro o ho
    rcases List.mem_map.mp ho with ⟨e, he, rfl⟩
    refine ⟨?_, nofun⟩
    intro answered heq
    rcases TimedEvent.client.inj heq with rfl
    rcases HeartbeatClient.emits_step h.client.good hallowed _ he with ⟨i, t, -, ht, hplace, -⟩
    exact h.place_ne ht hplace

theorem Agreeing.keeps_updateConn (h : s.Agreeing conn m) (hin : s.InTime now)
    (hlt : now.seconds < 2 ^ 32) (header : WSHead) (conn' : Nat) {call : FrameCall}
    (hcall : call.len ≤ call.data.length) {delivered : Nat} (hle : s.delivered ≤ delivered)
    (hsent : delivered ≤ s.client.sender.sent) (hping : conn' ≠ conn → delivered = s.delivered) :
    Keeps conn ({ s with delivered := delivered }.useRecv conn (.updateConn header conn' now call)) := by
  obtain ⟨out, heq⟩ := useRecv_updateConn { s with delivered := delivered } conn header conn' now hcall
  rw [heq]
  constructor
  · intro s' hs'
    rcases Except.ok.inj hs' with rfl
    exact ⟨_, h.updateConn hin hlt header conn' call hle hsent hping⟩
  · intro o ho
    rcases List.mem_map.mp ho with ⟨e, -, rfl⟩
    exact ⟨nofun, nofun⟩

/-- The timer of the server finds other connections only. -/
theorem Agreeing.keeps_timerCallback (h : s.Agreeing conn m) (hin : s.InTime now) :
    Keeps conn (s.useRecv conn (.timerCallback now)) := by
  rw [useRecv_timerCallback]
  constructor
  · intro s' hs'
    rcases Except.ok.inj hs' with rfl
    exact ⟨_, h.timerCallback hin⟩
  · intro o ho
    rcases List.mem_map.mp ho with ⟨entry, hentry, rfl⟩
    refine ⟨nofun, ?_⟩
    intro heq
    rcases List.mem_filter.mp hentry with ⟨hmem, hexpired⟩
    have hdue := (HeartbeatRecv.expired_iff h.tracks now hmem).mp (of_decide_eq_true hexpired)
    rw [RecvEvent.forceClose.inj (TimedEvent.recv.inj heq)] at hdue
    exact h.not_overdue hin hdue

theorem Agreeing.step (h : s.Agreeing conn m) {a : TimedStep} (ha : s.Allowed a) (hbelow : s.Below a) :
    Keeps conn (s.step conn a) := by
  cases a with
  | client now a => exact h.keeps_client ha.1 ha.2.1 ha.2.2
  | ping now header =>
      exact h.keeps_updateConn ha.1 hbelow header conn (Nat.le_refl 4) (Nat.le_succ _) ha.2
        fun hne => absurd rfl hne
  | recv a =>
      cases a with
      | updateConn header conn' now call =>
          exact h.keeps_updateConn ha.1 hbelow header conn' ha.2 (le_refl _) h.delivered fun _ => rfl
      | timerCallback now => exact h.keeps_timerCallback ha

theorem agreeing_invariant (conn : Nat) :
    ((timedMachine conn).restrict Below).Invariant fun s => ∃ m, s.Agreeing conn m :=
  fun _ _ s' ⟨_, h⟩ ha hok => (h.step ha.1 ha.2).agreeing s' hok

end TimedHeartbeat

namespace HeartbeatClient

variable {c c' : HeartbeatClient}

/-- A heartbeat that has not been started has no threads. -/
structure Unstarted (c : HeartbeatClient) : Prop where
  good : c.timers.Good
  inTurn : c.sender.InTurn
  threads : c.own = [] → c.sender.threads = []
  settled : c.own = [] → c.sender.Settled

theorem Unstarted.moves (h : c.Unstarted) {a : ClientStep} (ha : c.Allowed a) {out : List ClientEvent}
    (hmoves : c.Moves a out c') : c'.Unstarted := by
  have hown : c'.own = [] → c.own = [] := by
    intro hown
    cases hmoves with
    | startTimer => cases hown
    | _ => exact hown
  have horder : c.own = [] → c.InOrder a := by
    intro hown
    have hnil := h.threads hown
    cases a with
    | processPong | onConnected | timerHandle => simp [InOrder, HeartbeatSender.NoneTesting, hnil]
    | connect | startInLoop | connectorHandleWrite | peerClose | eventRead => trivial
  refine ⟨hmoves.good h.good, hmoves.inTurn ha h.inTurn, ?_, ?_⟩
  · intro hown'
    have hnil := h.threads (hown hown')
    cases hmoves with
    | connect | startInLoop | connectorHandleWrite | peerClose | processPong | startTimer => exact hnil
    | onConnected hnotifies => exact hnotifies.threads_eq.trans hnil
    | eventRead =>
        rw [hown hown', HeartbeatSender.foldl_onTimer_of_none fun _ _ _ => List.not_mem_nil]
        exact hnil
    | @timerHandle i | @reconnect i =>
        have hi : i < c.sender.threads.length := ha
        rw [hnil] at hi
        exact absurd hi (Nat.not_lt_zero i)
  · intro hown'
    have hsettled : c.SettledClient := ⟨h.good, h.inTurn, h.settled (hown hown')⟩
    exact (hsettled.moves ha (horder (hown hown')) hmoves).settled

theorem unstarted_invariant : clientMachine.Invariant Unstarted :=
  fun _ _ _ h ha hok => h.moves ha (moves_of_result h.good ha hok)

end HeartbeatClient

/-- When `start` is called for the first time, nobody has seen the connection. -/
theorem TimedHeartbeat.agreeing_start {c : HeartbeatClient} (h : c.Unstarted)
    (hcall : c.sender.callbacks = [.startSend]) (hown : c.own = []) (conn : Nat) :
    (start c).Agreeing conn LastSeen.empty where
  client := ⟨h.good, h.inTurn, h.settled hown⟩
  tracks := ⟨.nil, fun _ _ => iff_of_false List.not_mem_nil fun ⟨_, hnone, _⟩ => by cases hnone⟩
  delivered := le_refl _
  time := le_refl _
  seen := nofun
  first := nofun
  before _ := ⟨hcall, h.threads hown, hown, rfl, nofun⟩
  after := nofun

/-- From the first call of `start` on, the client does not connect again and the server does not close
the connection, as long as pings and pongs are in time and the clock is below 2^32 seconds. -/
theorem heartbeatsAgree {sentinel : Nat} (hpos : 0 < sentinel) (hlt : sentinel < UINTPTR_MAX)
    {t0 : Timestamp} (ht0 : 0 ≤ t0) (sIndexNum : Nat) (bsetup : Bool) (clock : Clock) :
    ∃ q, TimerQueue.new sIndexNum bsetup sentinel t0 clock = pure q ∧
      ∀ before c, clientMachine.Legal (.start q) before →
        (clientMachine.run (.start q) before).result = .ok c →
        c.sender.callbacks = [.startSend] → c.own = [] →
        ∀ conn steps, ((timedMachine conn).restrict TimedHeartbeat.Below).Legal (.start c) steps →
          HeartbeatsAgree conn (.start c) steps := by
  refine ⟨_, TimerQueue.new_eq sIndexNum bsetup hpos ht0 clock, ?_⟩
  intro before c hbefore hc hcall hown conn steps hlegal
  have hnew : (HeartbeatClient.start
      (TimerQueue.constructed sIndexNum bsetup sentinel t0 clock)).Unstarted :=
    ⟨TimerUse.good_new sIndexNum bsetup hpos hlt ht0 clock, nofun, fun _ => rfl,
      fun _ => ⟨Nat.le_refl 0, nofun, nofun, nofun, nofun, nofun⟩⟩
  have hunstarted := HeartbeatClient.unstarted_invariant.run hnew hbefore hc
  have hquiet := (TimedHeartbeat.agreeing_invariant conn).forall_out (Q := TimedHeartbeat.Quiet conn)
    (fun s a ⟨m, h⟩ ha => (h.step ha.1 ha.2).quiet)
    ⟨_, TimedHeartbeat.agreeing_start hunstarted hcall hown conn⟩ hlegal
  exact ⟨fun answered hmem => (hquiet _ hmem).1 answered rfl, fun hmem => (hquiet _ hmem).2 rfl⟩

/-- The server sees the connection at the time `t`, and `start`, the delivery of its ping and the pong
follow at once. -/
def startedAt (t : Timestamp) : List TimedStep :=
  [.recv (.updateConn ⟨0, 0, 0, 0, 0⟩ 1 t (.of [])), .client t (.onConnected 2 t ⟨0, t⟩),
    .client t (.onConnected 2 t ⟨0, t⟩), .client t (.onConnected 2 t ⟨0, t⟩), .ping t ⟨0, 0, 0, 0, 0⟩,
    .client t (.processPong 1)]

/-- The timer fires, and reads the state before its thread sends the next ping and sets it. The server
reads that ping. -/
def firedAt (t : Timestamp) : List TimedStep :=
  [.client t (.eventRead t true (fun _ => (.eWaitPing, t)) ⟨0, t⟩), .client t (.timerHandle 0),
    .client t (.timerHandle 0), .client t (.timerHandle 0), .ping t ⟨0, 0, 0, 0, 0⟩,
    .recv (.timerCallback t)]

/-- What happens at the time of everything before is in time. -/
theorem TimedHeartbeat.inTime_self {s : TimedHeartbeat} {now : Timestamp}
    (h : s.time ≤ now ∧ (s.since = none → ∀ first ∈ s.first, first = now) ∧
      (∀ since ∈ s.since, since = now) ∧
        ∀ e ∈ s.client.timers.queue.timerLists.toList, now ≤ e.first) : s.InTime now := by
  rcases h with ⟨hle, hfirst, hsince, htimers⟩
  have hdelay : now ≤ now + csDelay := Int.le_add_of_nonneg_right (by decide)
  refine ⟨hle, ?_, ?_, ?_⟩
  · intro hnone first hf
    rwa [hfirst hnone first hf]
  · intro since hs _
    rwa [hsince since hs]
  · intro _ _ e he _
    exact hdelay.trans (Int.add_le_add_right (htimers e he) csDelay)

/-- The client has found `eWaitPing` and calls `start`. -/
theorem legal_beforeStart (t : Timestamp) : clientMachine.Legal
    (.start (TimerQueue.constructed 0 true 1 t ⟨0, t⟩)) (establishRun.take 5) := by
  refine Machine.legal_cons trivial rfl ?_
  refine Machine.legal_cons ⟨rfl, Nat.one_pos⟩ rfl ?_
  refine Machine.legal_cons ⟨rfl, nofun⟩ rfl ?_
  refine Machine.legal_cons ⟨nofun, HeartbeatClient.free_two rfl, by decide⟩ rfl ?_
  exact Machine.legal_cons ⟨nofun, HeartbeatClient.free_two rfl, by decide⟩ rfl trivial

/-- The run up to the call of `start`. -/
abbrev BeforeStart (t : Timestamp) (c : HeartbeatClient) : Prop :=
  (clientMachine.run (.start (TimerQueue.constructed 0 true 1 t ⟨0, t⟩)) (establishRun.take 5)).result =
    .ok c

theorem legal_startedAt {c : HeartbeatClient} (hc : BeforeStart 1000000 c) :
    ((timedMachine 1).restrict TimedHeartbeat.Below).Legal (.start c) (startedAt 1000000) := by
  rcases Except.ok.inj hc with rfl
  have hseconds : Timestamp.seconds 1000000 < 2 ^ 32 := by decide
  refine Machine.legal_cons ⟨⟨TimedHeartbeat.inTime_self (by decide), Nat.le_refl 0⟩, hseconds⟩ rfl ?_
  refine Machine.legal_cons ⟨⟨TimedHeartbeat.inTime_self (by decide),
    ⟨nofun, HeartbeatClient.free_two rfl, by decide⟩, rfl⟩, trivial⟩ rfl ?_
  refine Machine.legal_cons ⟨⟨TimedHeartbeat.inTime_self (by decide),
    ⟨nofun, HeartbeatClient.free_two rfl, by decide⟩, rfl⟩, trivial⟩ rfl ?_
  refine Machine.legal_cons ⟨⟨TimedHeartbeat.inTime_self (by decide),
    ⟨nofun, HeartbeatClient.free_two rfl, by decide⟩, rfl⟩, trivial⟩ rfl ?_
  refine Machine.legal_cons ⟨⟨TimedHeartbeat.inTime_self (by decide), Nat.zero_lt_one⟩, hseconds⟩ rfl ?_
  exact Machine.legal_cons ⟨⟨TimedHeartbeat.inTime_self (by decide),
    ⟨rfl, ⟨_, rfl, nofun⟩, Nat.le_refl 1⟩, nofun⟩, trivial⟩ rfl trivial

theorem legal_firedAt {c : HeartbeatClient} (hc : BeforeStart 1000000 c) {s : TimedHeartbeat}
    (hs : ((timedMachine 1).run (.start c) (startedAt 1000000)).result = .ok s) :
    ((timedMachine 1).restrict TimedHeartbeat.Below).Legal s (firedAt 6000000) := by
  rcases Except.ok.inj hc with rfl
  rcases Except.ok.inj hs with rfl
  have hseconds : Timestamp.seconds 6000000 < 2 ^ 32 := by decide
  have hdue : ∀ e ∈ ([⟨6000000, 2⟩, ⟨31536001000000, 1⟩] : List TimerEntity),
      (6000000 : Timestamp) ≤ e.first + csDelay := by decide
  refine Machine.legal_cons ⟨⟨⟨by decide, nofun, fun _ _ hopen => ?_, fun _ _ e he _ => hdue e he⟩,
    ⟨rfl, fun _ => ?_⟩, le_refl _, fun e he _ _ => ⟨rfl, .inl rfl, le_refl _, hdue e he⟩⟩, trivial⟩ rfl ?_
  · rcases hopen with hlt | hne | ⟨t, ht, -⟩
    · exact absurd hlt (Nat.lt_irrefl 1)
    · exact absurd rfl hne
    · cases ht
  · show (0 : Int) < 6000000
    decide
  refine Machine.legal_cons ⟨⟨TimedHeartbeat.inTime_self (by decide), Nat.one_pos, trivial⟩, trivial⟩ rfl ?_
  refine Machine.legal_cons ⟨⟨TimedHeartbeat.inTime_self (by decide), Nat.one_pos, trivial⟩, trivial⟩ rfl ?_
  refine Machine.legal_cons ⟨⟨TimedHeartbeat.inTime_self (by decide), Nat.one_pos, trivial⟩, trivial⟩ rfl ?_
  refine Machine.legal_cons ⟨⟨TimedHeartbeat.inTime_self (by decide), Nat.lt_add_one 1⟩, hseconds⟩ rfl ?_
  exact ⟨⟨TimedHeartbeat.inTime_self (by decide), trivial⟩, fun _ _ => trivial⟩

theorem heartbeatsAgree_fired : ∃ q, TimerQueue.new 0 true 1 1000000 ⟨0, 1000000⟩ = pure q ∧
    ∃ c, (clientMachine.run (.start q) (establishRun.take 5)).result = .ok c ∧
      HeartbeatsAgree 1 (.start c) (startedAt 1000000 ++ firedAt 6000000) := by
  obtain ⟨q, hq, hruns⟩ := heartbeatsAgree (show 0 < 1 by decide) (by decide)
    (show (0 : Timestamp) ≤ 1000000 by decide) 0 true ⟨0, 1000000⟩
  rcases Except.ok.inj (congrArg Traced.result hq) with rfl
  refine ⟨_, hq, _, rfl, hruns _ _ (legal_beforeStart 1000000) rfl rfl rfl 1 _ ?_⟩
  apply Machine.legal_append.mpr
  refine ⟨legal_startedAt rfl, fun s hs => legal_firedAt rfl (s := s) ?_⟩
  exact hs

/-- 2^32 seconds after the epoch. -/
def lateTime : Timestamp := 4294967296000000

theorem legal_startedAt_late {c : HeartbeatClient} (hc : BeforeStart lateTime c) :
    (timedMachine 1).Legal (.start c) (startedAt lateTime) := by
  rcases Except.ok.inj hc with rfl
  refine Machine.legal_cons ⟨TimedHeartbeat.inTime_self (by decide), Nat.le_refl 0⟩ rfl ?_
  refine Machine.legal_cons ⟨TimedHeartbeat.inTime_self (by decide),
    ⟨nofun, HeartbeatClient.free_two rfl, by decide⟩, rfl⟩ rfl ?_
  refine Machine.legal_cons ⟨TimedHeartbeat.inTime_self (by decide),
    ⟨nofun, HeartbeatClient.free_two rfl, by decide⟩, rfl⟩ rfl ?_
  refine Machine.legal_cons ⟨TimedHeartbeat.inTime_self (by decide),
    ⟨nofun, HeartbeatClient.free_two rfl, by decide⟩, rfl⟩ rfl ?_
  refine Machine.legal_cons ⟨TimedHeartbeat.inTime_self (by decide), Nat.zero_lt_one⟩ rfl ?_
  exact Machine.legal_cons ⟨TimedHeartbeat.inTime_self (by decide),
    ⟨rfl, ⟨_, rfl, nofun⟩, Nat.le_refl 1⟩, nofun⟩ rfl trivial

/-- The server takes the seconds of the ping to be 0. -/
theorem exists_startedAt_late {c : HeartbeatClient} (hc : BeforeStart lateTime c) :
    ∃ s : TimedHeartbeat, ((timedMachine 1).run (.start c) (startedAt lateTime)).result = .ok s ∧
      s.InTime lateTime ∧ s.recv.connList = [(1, 0)] := by
  rcases Except.ok.inj hc with rfl
  exact ⟨_, rfl, TimedHeartbeat.inTime_self (by decide), rfl⟩

theorem forceClose_late {c : HeartbeatClient} (hc : BeforeStart lateTime c) :
    (timedMachine 1).Legal (.start c) (startedAt lateTime ++ [.recv (.timerCallback lateTime)]) ∧
      .recv (.forceClose 1) ∈ ((timedMachine 1).run (.start c)
        (startedAt lateTime ++ [.recv (.timerCallback lateTime)])).out := by
  rcases exists_startedAt_late hc with ⟨s, hs, hin, hlist⟩
  constructor
  · apply Machine.legal_append.mpr
    refine ⟨legal_startedAt_late hc, fun s' hs' => ⟨?_, fun _ _ => trivial⟩⟩
    rcases Except.ok.inj (hs.symm.trans hs') with rfl
    exact hin
  · rw [Machine.run_append, bind_of_ok hs, Machine.run_singleton]
    apply List.mem_append_right
    rw [show (timedMachine 1).step = TimedHeartbeat.step 1 from rfl, TimedHeartbeat.step,
      TimedHeartbeat.useRecv_timerCallback, hlist]
    exact List.mem_map_of_mem (List.mem_filter.mpr ⟨List.mem_singleton_self (1, 0), by decide⟩)

theorem not_heartbeatsAgree_lateClock : ∃ q, TimerQueue.new 0 true 1 lateTime ⟨0, lateTime⟩ = pure q ∧
    ∃ c, clientMachine.Legal (.start q) (establishRun.take 5) ∧
      (clientMachine.run (.start q) (establishRun.take 5)).result = .ok c ∧
      c.sender.callbacks = [.startSend] ∧ c.own = [] ∧
      (timedMachine 1).Legal (.start c) (startedAt lateTime ++ [.recv (.timerCallback lateTime)]) ∧
      ¬HeartbeatsAgree 1 (.start c) (startedAt lateTime ++ [.recv (.timerCallback lateTime)]) := by
  refine ⟨_, rfl, _, legal_beforeStart lateTime, rfl, rfl, rfl, (forceClose_late rfl).1, ?_⟩
  intro h
  exact h.2 (forceClose_late rfl).2

end WebsocketCpp
