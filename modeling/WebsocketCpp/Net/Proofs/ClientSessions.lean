import WebsocketCpp.Misc.Progress
import WebsocketCpp.Net.ClientConnections
import WebsocketCpp.Net.Proofs.Teardown

/-!
# The sessions of a client

`clientSessions`: however connections are made, closed and replaced, and whatever other threads do with
them, the client sees one session after another. Its connections are freed once and none is lost, but a
thread that has got one without the lock, or a task that has been bound for one, may come too late, and at
the end of a stream `handEvent` goes on in the handler that `handleClose` has deleted.
-/

namespace WebsocketCpp

def ConnEvent.isConnCallback : ConnEvent → Bool
  | .connCallbackFunc _ => true
  | _ => false

namespace Connection

/-- The callbacks that the constructor binds. Of the three for writing the last one stays. -/
def boundCallbacks :
    Option NetCallback × Option NetCallback × Option NetCallback × Option NetCallback :=
  (some .handleRead, some .handleError, none, none)

/-- The handler of the constructor is there. -/
def HasHandler (c : Connection) : Prop := ∃ ev, c.event = some ev ∧ ev.callbacks = boundCallbacks

/-- Connected, with its handler. -/
def Open (c : Connection) : Prop := c.state = .eConnected ∧ c.HasHandler

/-- Not established yet. -/
def Fresh (c : Connection) : Prop := c.state = .eDisconnected ∧ c.HasHandler

/-- The connection after `handleClose`. -/
def closed (c : Connection) : Connection := { c with state := .eDisconnected, event := none }

/-- What an open connection does, and stays open. -/
structure Speaks (c : Connection) (out : List ConnEvent) (c' : Connection) : Prop where
  isOpen : c'.Open
  funcs : c'.funcs = c.funcs
  noCallback : ∀ e ∈ out, e.isConnCallback = false

/-- The read callback is called. -/
def ReportsRead (revent : BitVec 32) : Prop := revent &&& (POLLIN ||| POLLPRI ||| POLLRDHUP) ≠ 0

instance (revent : BitVec 32) : Decidable (ReportsRead revent) :=
  inferInstanceAs (Decidable (_ ≠ _))

variable {c c' : Connection} {out : List ConnEvent}

theorem Open.speaks (h : c.Open) (hout : ∀ e ∈ out, e.isConnCallback = false) : c.Speaks out c :=
  ⟨h, rfl, hout⟩

theorem speaks_handleError (h : c.Open) : c.handleError = ⟨[.getsockError], .ok c⟩ := by
  rcases h with ⟨-, ev, hev, -⟩
  rw [handleError, handler_eq hev, pure_bind]
  rfl

theorem speaks_handleRead (h : c.Open) {answer : ReadAnswer} (hanswer : answer ≠ .eof) :
    ∃ out, c.handleRead answer = ⟨out, .ok c⟩ ∧ c.Speaks out c := by
  rcases h.2 with ⟨ev, hev, -⟩
  rw [handleRead.eq_def, handler_eq hev, pure_bind]
  cases answer with
  | eof => exact absurd rfl hanswer
  | failed => exact ⟨_, speaks_handleError h, h.speaks (by simp [ConnEvent.isConnCallback])⟩
  | data bytes =>
      cases hfunc : c.funcs.msgRecvFunc with
      | false => exact ⟨[], rfl, h.speaks (by simp)⟩
      | true => exact ⟨[.msgRecvFunc bytes], rfl, h.speaks (by simp [ConnEvent.isConnCallback])⟩

/-! ### What `handEvent` does -/

/-- A callback, after which `handEvent` reads its `revents_`. -/
def callThen (read : ReadAnswer) (write : WriteAnswer) (c : Connection) (callback : NetCallback) :
    Conn Connection := do
  let c ← c.call read write callback
  Traced.require (c.event ≠ none) .useAfterFree
  pure c

/-- The handler reads and reports errors, and nothing else. -/
theorem handEvent_bound {ev : EventHandler NetCallback} (h : ev.callbacks = boundCallbacks)
    (revent : BitVec 32) : (ev.setRevents revent).handEvent =
      (if ReportsRead revent then [.handleRead] else []) ++
        if revent &&& POLLOUT ≠ 0 then [.handleError] else [] := by
  simp only [EventHandler.callbacks, boundCallbacks, Prod.mk.injEq] at h
  have hin : (ev.setRevents revent).reports (POLLIN ||| POLLPRI ||| POLLRDHUP) = true ↔ ReportsRead revent :=
    decide_eq_true_iff
  have hout : (ev.setRevents revent).reports POLLOUT = true ↔ revent &&& POLLOUT ≠ 0 := decide_eq_true_iff
  have hread : (ev.setRevents revent).readCallback = some .handleRead := h.1
  have hwrite : (ev.setRevents revent).writeCallback = some .handleError := h.2.1
  have hclose : (ev.setRevents revent).closeCallback = none := h.2.2.1
  have herror : (ev.setRevents revent).errorCallback = none := h.2.2.2
  simp [EventHandler.handEvent, hin, hout, hread, hwrite, hclose, herror]

theorem foldlM_callThen (h : c.Open) (read : ReadAnswer) (write : WriteAnswer)
    {callbacks : List NetCallback}
    (hcallbacks : ∀ callback ∈ callbacks, callback = .handleRead ∧ read ≠ .eof ∨ callback = .handleError) :
    ∃ out, callbacks.foldlM (callThen read write) c = ⟨out, .ok c⟩ ∧ c.Speaks out c := by
  induction callbacks with
  | nil => exact ⟨[], rfl, h.speaks (by simp)⟩
  | cons callback callbacks ih =>
      rcases ih fun callback' hmem => hcallbacks callback' (List.mem_cons_of_mem _ hmem) with
        ⟨out, heq, hspeaks⟩
      have hone : ∃ first, c.call read write callback = ⟨first, .ok c⟩ ∧ c.Speaks first c := by
        rcases hcallbacks callback List.mem_cons_self with ⟨rfl, hread⟩ | rfl
        · exact speaks_handleRead h hread
        · exact ⟨_, speaks_handleError h, h.speaks (by simp [ConnEvent.isConnCallback])⟩
      rcases hone with ⟨first, hcall, hfirst⟩
      rcases h.2 with ⟨ev, hev, -⟩
      refine ⟨first ++ out, ?_, h.speaks ?_⟩
      · have hthen : callThen read write c callback = ⟨first, .ok c⟩ := by
          rw [callThen, hcall, Traced.mk_bind, Traced.require_true (by simp [hev])]
          exact congrArg (Traced.mk · _) (List.append_nil _)
        rw [List.foldlM_cons, hthen, Traced.mk_bind, heq]
      · intro e he
        exact (List.mem_append.mp he).elim (hfirst.noCallback e) (hspeaks.noCallback e)

/-- At the end of the stream the connection is closed, and `handEvent` follows the deleted handler; else it
stays open. -/
theorem handEvent_open (h : c.Open) (revent : BitVec 32) (read : ReadAnswer) (write : WriteAnswer) :
    (ReportsRead revent ∧ read = .eof) ∧
      c.handEvent revent read write = ⟨c.funcs.closing, .error .useAfterFree⟩ ∨
    ¬(ReportsRead revent ∧ read = .eof) ∧
      ∃ out c', c.handEvent revent read write = ⟨out, .ok c'⟩ ∧ c.Speaks out c' := by
  rcases h with ⟨hstate, ev, hev, hbound⟩
  let c₁ : Connection := { c with event := some (ev.setRevents revent) }
  have hopen : c₁.Open := ⟨hstate, _, rfl, hbound⟩
  have heq : c.handEvent revent read write =
      (ev.setRevents revent).handEvent.foldlM (callThen read write) c₁ := by
    rw [handEvent, updateEvent_eq hev, pure_bind, handler_eq (c := c₁) rfl, pure_bind]
    rfl
  rw [heq, handEvent_bound hbound]
  by_cases hend : ReportsRead revent ∧ read = .eof
  · refine .inl ⟨hend, ?_⟩
    rcases hend with ⟨hread, rfl⟩
    have hclose : c₁.call .eof write .handleRead = ⟨c.funcs.closing, .ok c₁.closed⟩ := by
      rw [call.eq_def, handleRead.eq_def, handler_eq (c := c₁) rfl, pure_bind]
      exact handleClose_eq (c := c₁) rfl
    rw [if_pos hread, List.singleton_append, List.foldlM_cons, callThen, hclose, Traced.mk_bind,
      Traced.require_false (by simp [closed]), Traced.fail_bind, Traced.bind_of_error rfl]
    exact congrArg (Traced.mk · _) (List.append_nil _)
  · refine .inr ⟨hend, ?_⟩
    have hsame : ∀ {out}, c₁.Speaks out c₁ → c.Speaks out c₁ := fun hspeaks =>
      ⟨hspeaks.isOpen, rfl, hspeaks.noCallback⟩
    have hcallbacks : ∀ callback ∈ (if ReportsRead revent then [NetCallback.handleRead] else []) ++
        (if revent &&& POLLOUT ≠ 0 then [NetCallback.handleError] else []),
        callback = .handleRead ∧ read ≠ .eof ∨ callback = .handleError := by
      intro callback hmem
      rcases List.mem_append.mp hmem with hmem | hmem
      · split at hmem
        · rename_i hread
          exact .inl ⟨List.mem_singleton.mp hmem, fun heof => hend ⟨hread, heof⟩⟩
        · cases hmem
      · split at hmem
        · exact .inr (List.mem_singleton.mp hmem)
        · cases hmem
    rcases foldlM_callThen hopen read write hcallbacks with ⟨out, hfold, hspeaks⟩
    exact ⟨out, c₁, hfold, hsame hspeaks⟩

/-! ### What the loop does -/

theorem speaks_sendInReactor (h : c.Open) (data : List UInt8) (answer : WriteAnswer) :
    ∃ out c', c.sendInReactor data answer = ⟨out, .ok c'⟩ ∧ c.Speaks out c' := by
  rcases h with ⟨hstate, ev, hev, hbound⟩
  rcases sendInReactor_refines hev (.new ⟨0, fun _ => 0⟩) data answer with ⟨out, c', ev', heq, -, hkeeps⟩
  refine ⟨out.map .send, c', heq, ⟨hkeeps.state.trans hstate, ev', hkeeps.event, ?_⟩, hkeeps.funcs, ?_⟩
  · exact hkeeps.callbacks.trans hbound
  simp [ConnEvent.isConnCallback]

/-- `shutdown` is called, and fails. -/
def FailsToShut (c : Connection) (shut : Bool) (task : ClientTask) : Prop :=
  task = .shutdownInReactor ∧ shut = false ∧ ∃ ev, c.event = some ev ∧ ev.isWriteable = false

theorem runTask_open (h : c.Open) (answer : WriteAnswer) (shut : Bool) (task : ClientTask) :
    ¬c.FailsToShut shut task ∧
      (∃ out c', ClientUse.runTask c answer shut task = ⟨out, .ok c'⟩ ∧ c.Speaks out c') ∨
    c.FailsToShut shut task ∧ ClientUse.runTask c answer shut task = ⟨[], .error .assertion⟩ := by
  cases task with
  | sendInReactor data =>
      refine .inl ⟨?_, speaks_sendInReactor h data answer⟩
      rintro ⟨⟨⟩, -⟩
  | shutdownInReactor =>
      rcases h.2 with ⟨ev, hev, -⟩
      rw [ClientUse.runTask, shutdownInReactor, handler_eq hev, pure_bind, pure_bind]
      cases hwriteable : ev.isWriteable with
      | true =>
          refine .inl ⟨?_, [], c, rfl, h.speaks (by simp)⟩
          rintro ⟨-, -, ev', hev', hnot⟩
          rcases Option.some.inj (hev.symm.trans hev')
          rw [hwriteable] at hnot
          cases hnot
      | false =>
          cases shut with
          | true =>
              refine .inl ⟨?_, [.shutdownWrite], c, rfl, h.speaks (by simp [ConnEvent.isConnCallback])⟩
              rintro ⟨-, ⟨⟩, -⟩
          | false => exact .inr ⟨⟨rfl, rfl, ev, hev, hwriteable⟩, rfl⟩

theorem speaks_sendAtOnce (h : c.Open) (data : List UInt8) (answer : WriteAnswer) :
    ∃ out c', ClientUse.sendAtOnce c data answer = ⟨out, .ok c'⟩ ∧ c.Speaks out c' := by
  rw [ClientUse.sendAtOnce, if_pos h.1]
  exact speaks_sendInReactor h data answer

/-- `~NetConnection` closes the connection, with its callbacks. -/
theorem destruct_eq (h : c.Open) : ClientUse.destruct c = ⟨c.funcs.closing, .ok c.closed⟩ := by
  rcases h with ⟨hstate, ev, hev, -⟩
  rw [ClientUse.destruct, if_pos hstate]
  exact handleClose_eq (c := { c with state := .eDisconnected }) hev

end Connection

/-! ## Sessions -/

/-- The session that is open after an event. A session is opened and closed by the callbacks of a connection,
which does nothing outside of it but to report the end. -/
def session (current : Option Nat) : SessionEvent → Option (Option Nat)
  | .conn p (.connCallbackFunc .eConnected) => if current = none then some (some p) else none
  | .conn p (.connCallbackFunc _) => if current = some p then some none else none
  | .conn _ .closeFunc => some current
  | .conn p _ => if current = some p then some current else none
  | .deleted p => if current = some p then none else some current

/-- The events come in sessions, and `current` is still open. -/
def InSessions (events : List SessionEvent) (current : Option Nat) : Prop :=
  events.foldlM session none = some current

theorem InSessions.append {past out : List SessionEvent} {current current' : Option Nat}
    (h : InSessions past current) (hout : out.foldlM session current = some current') :
    InSessions (past ++ out) current' := by
  rw [InSessions, List.foldlM_append, show past.foldlM session none = some current from h]
  exact hout

/-- The session that a connection has open. -/
def Connection.openSession (p : Nat) (c : Connection) : Option Nat :=
  if c.state = .eConnected then some p else none

theorem foldlM_session_speaks (p : Nat) {out : List ConnEvent} (h : ∀ e ∈ out, e.isConnCallback = false) :
    (out.map (.conn p)).foldlM session (some p) = some (some p) := by
  induction out with
  | nil => rfl
  | cons e out ih =>
      have he : session (some p) (.conn p e) = some (some p) := by
        have hcallback := h e (by simp)
        cases e with
        | connCallbackFunc => cases hcallback
        | closeFunc => rfl
        | _ => exact if_pos rfl
      rw [List.map_cons, List.foldlM_cons, he]
      exact ih fun e he => h e (List.mem_cons_of_mem _ he)

/-- What an open connection does goes on with its session. -/
theorem Connection.Speaks.session_eq {c c' : Connection} {out : List ConnEvent} (h : c.Speaks out c')
    (hopen : c.Open) (p : Nat) :
    (out.map (.conn p)).foldlM session (c.openSession p) = some (c'.openSession p) := by
  rw [openSession, openSession, if_pos hopen.1, if_pos h.isOpen.1]
  exact foldlM_session_speaks p h.noCallback

/-- Its end is the end of its session. -/
theorem Connection.Open.session_closing {c : Connection} (h : c.Open)
    (hfuncs : c.funcs.connCallbackFunc = true) (p : Nat) :
    (c.funcs.closing.map (.conn p)).foldlM session (c.openSession p) = some none := by
  rw [openSession, if_pos h.1, ConnFuncs.closing, if_pos hfuncs]
  cases c.funcs.closeFunc <;> simp [session]

/-! ## What the steps do -/

/-- The call is one of `disconnect`, which holds `mutex_`. -/
def ClientCall.Locks : ClientCall → Prop
  | .disconnect | .runInLoop .shutdownInReactor => True
  | _ => False

namespace ClientUse

/-- What a step does, one constructor for each way through it. -/
inductive Moves : ClientUse → List SessionEvent → ClientUse → Prop where
  | newConnection {s p} : s.establishing = none → s.conns p = none →
      Moves s [] { s.setConn p (some (.new s.funcs)) with establishing := some (p, .lock) }
  | lockOld {s p old} : s.establishing = some (p, .lock) → s.mutex = none → s.conn = some old →
      Moves s [] { s with establishing := some (p, .destruct old) }
  | lockFirst {s p} : s.establishing = some (p, .lock) → s.mutex = none → s.conn = none →
      Moves s [] { s with establishing := some (p, .assign) }
  | destruct {s p old c} : s.establishing = some (p, .destruct old) → s.conns old = some c →
      Moves s (c.funcs.closing.map (.conn old))
        { s.setConn old (some c.closed) with establishing := some (p, .free old) }
  | free {s p old} : s.establishing = some (p, .free old) →
      Moves s [.deleted old] { s.setConn old none with establishing := some (p, .assign) }
  | assign {s p} : s.establishing = some (p, .assign) →
      Moves s [] { s with conn := some p, establishing := some (p, .established) }
  | established {s p c c'} : s.establishing = some (p, .established) → s.conns p = some c →
      c'.Open → c'.funcs = c.funcs →
      Moves s [.conn p (.connCallbackFunc .eConnected)]
        { s.setConn p (some c') with establishing := none }
  /-- The loop uses the connection. -/
  | use {s p c out c' functorList} : s.establishing = none → s.conns p = some c → c.Speaks out c' →
      functorList ⊆ s.functorList →
      Moves s (out.map (.conn p)) { s.setConn p (some c') with functorList := functorList }
  | idle {s} : Moves s [] s
  | getConn {s tid data} : s.calls tid = none →
      Moves s [] (s.setCall tid (s.conn.map fun p => (p, .getConn data)))
  | disconnect {s tid p} : s.conn = some p → s.mutex = none → ¬s.Locked →
      Moves s [] ({ s with mutex := some tid }.setCall tid (some (p, .disconnect)))
  /-- The connection is connected. -/
  | test {s tid p call task} : s.calls tid = some (p, call) →
      ((ClientCall.runInLoop task).Locks → call.Locks) →
      Moves s [] (s.setCall tid (some (p, .runInLoop task)))
  /-- A thread comes to the end, and may have bound something. -/
  | leave {s tid p call functorList} : s.calls tid = some (p, call) →
      (∀ func ∈ functorList, func ∈ s.functorList ∨ func.conn = p) →
      Moves s [] ({ s with functorList := functorList }.leave tid)

/-- What holds of `conn_`, by the place of the loop. -/
def Current (s : ClientUse) (q : Nat) : Prop :=
  match s.establishing with
  | none | some (_, .lock) | some (_, .destruct _) => ∃ c, s.conns q = some c ∧ c.Open
  | some (_, .free _) => ∃ c, s.conns q = some c ∧ c.state = .eDisconnected
  | some (_, .assign) => s.conns q = none
  | some (p, .established) => q = p

/-- The objects of a client: `conn_`, and the new connection while it is established. -/
structure Objects (s : ClientUse) : Prop where
  callback : s.funcs.connCallbackFunc = true
  funcs : ∀ p c, s.conns p = some c → c.funcs = s.funcs
  owned : ∀ p, s.conns p ≠ none → s.conn = some p ∨ ∃ place, s.establishing = some (p, place)
  fresh : ∀ p place, s.establishing = some (p, place) → ∃ c, s.conns p = some c ∧ c.Fresh
  apart : ∀ p place, s.establishing = some (p, place) → (s.conn = some p ↔ place = .established)
  current : ∀ q, s.conn = some q → s.Current q
  old : ∀ p q, s.establishing = some (p, .destruct q) ∨ s.establishing = some (p, .free q) → s.conn = some q

/-- The open session. -/
def current (s : ClientUse) : Option Nat := s.conn.bind fun p => (s.conns p).bind (·.openSession p)

variable {s s' : ClientUse} {out : List SessionEvent}

@[simp] theorem conns_setConn_self (s : ClientUse) (p : Nat) (c : Option Connection) :
    (s.setConn p c).conns p = c := Function.update_self ..

theorem conns_setConn_of_ne (s : ClientUse) {p q : Nat} (h : q ≠ p) (c : Option Connection) :
    (s.setConn p c).conns q = s.conns q := Function.update_of_ne h ..

@[simp] theorem funcs_setConn (s : ClientUse) (p : Nat) (c : Option Connection) :
    (s.setConn p c).funcs = s.funcs := rfl

@[simp] theorem conn_setConn (s : ClientUse) (p : Nat) (c : Option Connection) :
    (s.setConn p c).conn = s.conn := rfl

@[simp] theorem establishing_setConn (s : ClientUse) (p : Nat) (c : Option Connection) :
    (s.setConn p c).establishing = s.establishing := rfl

theorem current_eq {p : Nat} {c : Connection} (hconn : s.conn = some p) (hc : s.conns p = some c) :
    s.current = c.openSession p := by
  rw [ClientUse.current, hconn, Option.bind_some, hc, Option.bind_some]

theorem current_of_none {p : Nat} (hconn : s.conn = some p) (hc : s.conns p = none) : s.current = none := by
  rw [ClientUse.current, hconn, Option.bind_some, hc, Option.bind_none]

/-- The connection of an address, after another one has been replaced. -/
theorem conns_setConn_cases {Q : Nat → Connection → Prop} {p : Nat} {o : Option Connection}
    (hp : ∀ c, o = some c → Q p c) (h : ∀ q c, q ≠ p → s.conns q = some c → Q q c) :
    ∀ q c, (s.setConn p o).conns q = some c → Q q c := by
  intro q c hq
  by_cases hqp : q = p
  · subst hqp
    rw [conns_setConn_self] at hq
    exact hp c hq
  · rw [conns_setConn_of_ne s hqp] at hq
    exact h q c hqp hq

theorem Objects.ne_of_current (h : s.Objects) {p q : Nat} {place : EstablishPlace}
    (hplace : s.establishing = some (p, place)) (hne : place ≠ .established) (hq : s.conn = some q) :
    q ≠ p := by
  rintro rfl
  exact hne ((h.apart q place hplace).mp hq)

/-- The connection that the poller knows, or a task finds, is `conn_`. -/
theorem Objects.conn_eq (h : s.Objects) (hidle : s.establishing = none) {p : Nat} (hp : s.conns p ≠ none) :
    s.conn = some p := by
  rcases h.owned p hp with hconn | ⟨place, hplace⟩
  · exact hconn
  · rw [hidle] at hplace
    cases hplace

theorem Objects.isOpen (h : s.Objects) (hidle : s.establishing = none) {p : Nat} (hp : s.conn = some p) :
    ∃ c, s.conns p = some c ∧ c.Open := by
  have hcurrent := h.current p hp
  rwa [Current, hidle] at hcurrent

theorem Objects.newConnection (h : s.Objects) {p : Nat} (hidle : s.establishing = none)
    (hfree : s.conns p = none) :
    Objects { s.setConn p (some (.new s.funcs)) with establishing := some (p, .lock) } := by
  have hne : ∀ {q}, s.conn = some q → q ≠ p := by
    rintro q hq rfl
    rcases h.isOpen hidle hq with ⟨c, hc, -⟩
    rw [hfree] at hc
    cases hc
  refine ⟨h.callback, ?_, ?_, ?_, ?_, ?_, by simp⟩
  · exact conns_setConn_cases (by simp [Connection.new]) fun q c _ => h.funcs q c
  · intro q hq
    by_cases hqp : q = p
    · exact .inr ⟨.lock, by simp [hqp]⟩
    · exact .inl (h.conn_eq hidle (conns_setConn_of_ne s hqp _ ▸ hq))
  · rintro q place heq
    cases heq
    exact ⟨_, conns_setConn_self .., rfl, _, rfl, rfl⟩
  · rintro q place heq
    cases heq
    exact iff_of_false (fun hq => hne hq rfl) (by simp)
  · intro q hq
    rcases h.isOpen hidle hq with ⟨c, hc, hopen⟩
    exact ⟨c, (conns_setConn_of_ne s (hne hq) _).trans hc, hopen⟩

/-- The loop gets on in `establishConnection` without an object being touched. -/
theorem Objects.goto (h : s.Objects) {p : Nat} {place place' : EstablishPlace}
    (hplace : s.establishing = some (p, place)) (hne : place ≠ .established) (hne' : place' ≠ .established)
    (hcurrent : ∀ q, s.conn = some q → Current { s with establishing := some (p, place') } q)
    (hold : ∀ q, place' = .destruct q ∨ place' = .free q → s.conn = some q) :
    Objects { s with establishing := some (p, place') } := by
  refine ⟨h.callback, h.funcs, ?_, ?_, ?_, hcurrent, ?_⟩
  · intro q hq
    rcases h.owned q hq with hconn | ⟨place'', heq⟩
    · exact .inl hconn
    · rw [hplace] at heq
      cases heq
      exact .inr ⟨place', rfl⟩
  · intro q place'' heq
    cases heq
    exact h.fresh p place hplace
  · intro q place'' heq
    cases heq
    exact iff_of_false (mt (h.apart p place hplace).mp hne) hne'
  · rintro p' q (heq | heq) <;> cases heq
    · exact hold q (.inl rfl)
    · exact hold q (.inr rfl)

/-- The loop uses or replaces the connection `conn_`, the last time for one that is deleted. -/
theorem Objects.setConn (h : s.Objects) {p q : Nat} {o : Option Connection} {place place' : EstablishPlace}
    (hplace : s.establishing = some (p, place)) (hne : place ≠ .established) (hne' : place' ≠ .established)
    (hq : s.conn = some q) (ho : ∀ c, o = some c → c.funcs = s.funcs)
    (hcurrent : Current { s.setConn q o with establishing := some (p, place') } q)
    (hold : ∀ q', place' = .destruct q' ∨ place' = .free q' → q' = q) :
    Objects { s.setConn q o with establishing := some (p, place') } := by
  have hqp := h.ne_of_current hplace hne hq
  refine ⟨h.callback, ?_, ?_, ?_, ?_, ?_, ?_⟩
  · exact conns_setConn_cases ho fun q c _ => h.funcs q c
  · intro r hr
    by_cases hrq : r = q
    · exact .inl (hrq ▸ hq)
    · rcases h.owned r (conns_setConn_of_ne s hrq _ ▸ hr) with hconn | ⟨place'', heq⟩
      · exact .inl hconn
      · rw [hplace] at heq
        cases heq
        exact .inr ⟨place', rfl⟩
  · intro r place'' heq
    cases heq
    rcases h.fresh p place hplace with ⟨c, hc, hfresh⟩
    exact ⟨c, (conns_setConn_of_ne s hqp.symm _).trans hc, hfresh⟩
  · intro r place'' heq
    cases heq
    exact iff_of_false (mt (h.apart p place hplace).mp hne) hne'
  · intro r hr
    rcases Option.some.inj (hr.symm.trans hq)
    exact hcurrent
  · rintro p' q' (heq | heq) <;> cases heq
    · rw [hold q' (.inl rfl)]
      exact hq
    · rw [hold q' (.inr rfl)]
      exact hq

/-- The connection that is `conn_` talks. -/
theorem Objects.use (h : s.Objects) {p : Nat} {c c' : Connection} {events : List ConnEvent}
    {functorList : List BoundTask} (hidle : s.establishing = none) (hc : s.conns p = some c)
    (ht : c.Speaks events c') : Objects { s.setConn p (some c') with functorList := functorList } := by
  have hconn := h.conn_eq hidle (p := p) (by simp [hc])
  rcases h.isOpen hidle hconn with ⟨c₀, hc₀, hopen⟩
  rcases Option.some.inj (hc₀.symm.trans hc)
  have hnone : ∀ {x}, s.establishing = some x → False := by simp [hidle]
  refine ⟨h.callback, ?_, ?_, fun _ _ heq => (hnone heq).elim, fun _ _ heq => (hnone heq).elim, ?_, ?_⟩
  · refine conns_setConn_cases ?_ fun q c _ => h.funcs q c
    rintro _ ⟨⟩
    exact ht.funcs.trans (h.funcs p c hc)
  · intro q hq
    by_cases hqp : q = p
    · exact .inl (hqp ▸ hconn)
    · exact h.owned q (conns_setConn_of_ne s hqp _ ▸ hq)
  · intro q hq
    rcases Option.some.inj (hq.symm.trans hconn)
    simp only [Current, establishing_setConn, hidle]
    exact ⟨c', conns_setConn_self .., ht.isOpen⟩
  · rintro _ _ (heq | heq) <;> exact (hnone heq).elim

/-- The new connection becomes `conn_`. -/
theorem Objects.assign (h : s.Objects) {p : Nat} (hplace : s.establishing = some (p, .assign)) :
    Objects { s with conn := some p, establishing := some (p, .established) } := by
  refine ⟨h.callback, h.funcs, ?_, ?_, ?_, ?_, by simp⟩
  · intro q hq
    rcases h.owned q hq with hconn | ⟨place, heq⟩
    · have hnone := h.current q hconn
      simp only [Current, hplace] at hnone
      exact absurd hnone hq
    · rw [hplace] at heq
      cases heq
      exact .inl rfl
  · intro q place heq
    cases heq
    exact h.fresh p .assign hplace
  · intro q place heq
    cases heq
    exact iff_of_true rfl rfl
  · rintro q ⟨⟩
    rfl

/-- And it is established. -/
theorem Objects.established (h : s.Objects) {p : Nat} {c c' : Connection}
    (hplace : s.establishing = some (p, .established)) (hc : s.conns p = some c)
    (hopen : c'.Open) (hfuncs : c'.funcs = c.funcs) :
    Objects { s.setConn p (some c') with establishing := none } := by
  have hconn : s.conn = some p := (h.apart p .established hplace).mpr rfl
  refine ⟨h.callback, ?_, ?_, by simp, by simp, ?_, by simp⟩
  · refine conns_setConn_cases ?_ fun q c _ => h.funcs q c
    rintro _ ⟨⟩
    exact hfuncs.trans (h.funcs p c hc)
  · intro q hq
    by_cases hqp : q = p
    · exact .inl (hqp ▸ hconn)
    · rcases h.owned q (conns_setConn_of_ne s hqp _ ▸ hq) with hconn | ⟨place, heq⟩
      · exact .inl hconn
      · rw [hplace] at heq
        cases heq
        exact absurd rfl hqp
  · intro q hq
    rcases Option.some.inj (hq.symm.trans hconn)
    exact ⟨c', conns_setConn_self .., hopen⟩

/-- Every step keeps the invariant of the objects. -/
theorem Objects.moves (h : s.Objects) (hmoves : s.Moves out s') : s'.Objects := by
  cases hmoves with
  | newConnection hidle hfree => exact h.newConnection hidle hfree
  | lockOld hplace hmutex hconn =>
      refine h.goto hplace (by simp) (by simp) ?_ ?_
      · intro q hq
        have hcurrent := h.current q hq
        simp only [Current, hplace] at hcurrent
        exact hcurrent
      · rintro q (heq | heq) <;> cases heq
        exact hconn
  | lockFirst hplace hmutex hconn =>
      exact h.goto hplace (by simp) (by simp) (fun q hq => by simp [hconn] at hq) (by simp)
  | @destruct p old c hplace hc =>
      have hold := h.old p old (.inl hplace)
      refine h.setConn hplace (by simp) (by simp) hold ?_ ?_ ?_
      · rintro _ ⟨⟩
        exact h.funcs old c hc
      · simp only [Current, conns_setConn_self]
        exact ⟨_, rfl, rfl⟩
      · rintro q (heq | heq) <;> cases heq
        rfl
  | @free p old hplace =>
      have hold := h.old p old (.inr hplace)
      refine h.setConn hplace (by simp) (by simp) hold (by simp) ?_ (by simp)
      simp only [Current, conns_setConn_self]
  | assign hplace => exact h.assign hplace
  | established hplace hc hopen hfuncs => exact h.established hplace hc hopen hfuncs
  | use hidle hc ht => exact h.use hidle hc ht
  | idle => exact h
  | getConn | disconnect | test | leave =>
      exact ⟨h.callback, h.funcs, h.owned, h.fresh, h.apart, h.current, h.old⟩

/-- Every step goes on with the sessions. -/
theorem Objects.session_moves (h : s.Objects) (hmoves : s.Moves out s') :
    out.foldlM session s.current = some s'.current := by
  cases hmoves with
  | @newConnection p hidle hfree =>
      refine congrArg some ?_
      cases hconn : s.conn with
      | none => simp [ClientUse.current, hconn]
      | some q =>
          rcases h.isOpen hidle hconn with ⟨c, hc, -⟩
          have hqp : q ≠ p := by
            rintro rfl
            rw [hfree] at hc
            cases hc
          rw [current_eq hconn hc]
          symm
          exact current_eq hconn ((conns_setConn_of_ne s hqp _).trans hc)
  | lockOld | lockFirst => rfl
  | @destruct p old c hplace hc =>
      have hold := h.old p old (.inl hplace)
      have hcurrent := h.current old hold
      simp only [Current, hplace] at hcurrent
      rcases hcurrent with ⟨c₀, hc₀, hopen⟩
      rcases Option.some.inj (hc₀.symm.trans hc)
      rw [current_eq hold hc, hopen.session_closing ((h.funcs old c hc).symm ▸ h.callback)]
      refine congrArg some (Eq.symm ?_)
      exact current_eq (s := { s.setConn old (some c.closed) with establishing := some (p, .free old) }) hold
        (conns_setConn_self ..)
  | @free p old hplace =>
      have hold := h.old p old (.inr hplace)
      have hcurrent := h.current old hold
      simp only [Current, hplace] at hcurrent
      rcases hcurrent with ⟨c, hc, hstate⟩
      have hnone : s.current = none := by
        rw [current_eq hold hc, Connection.openSession, if_neg (by simp [hstate])]
      rw [hnone]
      refine congrArg some (Eq.symm ?_)
      exact current_of_none hold (conns_setConn_self ..)
  | @assign p hplace =>
      rcases h.fresh p _ hplace with ⟨c, hc, hstate, -⟩
      have hnone : s.current = none := by
        cases hconn : s.conn with
        | none => rw [ClientUse.current, hconn, Option.bind_none]
        | some q =>
            have hcurrent := h.current q hconn
            simp only [Current, hplace] at hcurrent
            exact current_of_none hconn hcurrent
      have hopen : c.openSession p = none := by
        rw [Connection.openSession, if_neg (by simp [hstate])]
      rw [hnone, ← hopen]
      refine congrArg some (Eq.symm ?_)
      exact current_eq rfl hc
  | @established p c c' hplace hc hopen' hfuncs =>
      have hconn : s.conn = some p := (h.apart p .established hplace).mpr rfl
      rcases h.fresh p _ hplace with ⟨c₀, hc₀, hfresh, -⟩
      rcases Option.some.inj (hc₀.symm.trans hc)
      have hopen := current_eq (s := { s.setConn p (some c') with establishing := none }) hconn
        (conns_setConn_self ..)
      rw [current_eq hconn hc, hopen, Connection.openSession, Connection.openSession, if_pos hopen'.1,
        if_neg (by simp [hfresh])]
      rfl
  | @use p c out c' functorList hidle hc ht =>
      have hconn := h.conn_eq hidle (p := p) (by simp [hc])
      rcases h.isOpen hidle hconn with ⟨c₀, hc₀, hopen⟩
      rcases Option.some.inj (hc₀.symm.trans hc)
      rw [current_eq hconn hc, ht.session_eq hopen]
      refine congrArg some (Eq.symm ?_)
      exact current_eq hconn (conns_setConn_self ..)
  | idle | getConn | disconnect | test | leave => rfl

/-- `p` is an address that the client, a thread or a task has. -/
def Refers (s : ClientUse) (p : Nat) : Prop :=
  s.conn = some p ∨ (∃ tid call, s.calls tid = some (p, call)) ∨ ∃ func ∈ s.functorList, func.conn = p

/-- What holds of the addresses when `past` has happened. -/
structure Pointers (past : List SessionEvent) (s : ClientUse) : Prop where
  known : ∀ p, s.Refers p → s.conns p ≠ none ∨ .deleted p ∈ past
  /-- `mutex_` keeps the connection of `disconnect` from being replaced. -/
  locks : ∀ tid p call, s.calls tid = some (p, call) → call.Locks → s.mutex = some tid ∧ s.conn = some p
  unlocked : s.mutex ≠ none → ¬s.Locked

@[simp] theorem calls_setCall_self (s : ClientUse) (tid : Nat) (call : Option (Nat × ClientCall)) :
    (s.setCall tid call).calls tid = call := Function.update_self ..

theorem calls_setCall_of_ne (s : ClientUse) {tid tid' : Nat} (h : tid' ≠ tid)
    (call : Option (Nat × ClientCall)) : (s.setCall tid call).calls tid' = s.calls tid' :=
  Function.update_of_ne h ..

/-- The calls of the threads, after one of them has gone on. -/
theorem calls_setCall_cases {tid : Nat} {o : Option (Nat × ClientCall)} {Q : Nat → Nat → ClientCall → Prop}
    (hself : ∀ p call, o = some (p, call) → Q tid p call)
    (h : ∀ tid' p call, tid' ≠ tid → s.calls tid' = some (p, call) → Q tid' p call) :
    ∀ tid' p call, (s.setCall tid o).calls tid' = some (p, call) → Q tid' p call := by
  intro tid' p call hcall
  by_cases htid : tid' = tid
  · subst htid
    rw [calls_setCall_self] at hcall
    exact hself p call hcall
  · rw [calls_setCall_of_ne s htid] at hcall
    exact h tid' p call htid hcall

theorem refers_call {tid p : Nat} {call : ClientCall} (h : s.calls tid = some (p, call)) : s.Refers p :=
  .inr (.inl ⟨tid, call, h⟩)

theorem refers_task {func : BoundTask} (h : func ∈ s.functorList) : s.Refers func.conn :=
  .inr (.inr ⟨func, h, rfl⟩)

/-- A thread goes on with an address that has been there. -/
theorem refers_setCall {tid : Nat} {o : Option (Nat × ClientCall)}
    (hself : ∀ p call, o = some (p, call) → s.Refers p) :
    ∀ tid' p call, (s.setCall tid o).calls tid' = some (p, call) → s.Refers p :=
  calls_setCall_cases (Q := fun _ p _ => s.Refers p) hself fun _ _ _ _ hcall => refers_call hcall

/-- A step of the loop that makes or changes an object. -/
theorem Pointers.loop {past : List SessionEvent} (h : Pointers past s) (hcalls : s'.calls = s.calls)
    (hmutex : s'.mutex = s.mutex) (hfuncs : s'.functorList ⊆ s.functorList)
    (hconns : ∀ p, s.conns p ≠ none → s'.conns p ≠ none ∨ .deleted p ∈ out)
    (hconn : ∀ p, s'.conn = some p → s.conn = some p ∨ s'.conns p ≠ none)
    (hkept : s.mutex ≠ none → s'.conn = s.conn) (hunlocked : s'.Locked → s.mutex = none) :
    Pointers (past ++ out) s' := by
  refine ⟨?_, ?_, ?_⟩
  · intro p hp
    have hold : s.Refers p → s'.conns p ≠ none ∨ .deleted p ∈ past ++ out := by
      intro hrefers
      rcases h.known p hrefers with hlive | hgone
      · exact (hconns p hlive).imp_right (List.mem_append_right _)
      · exact .inr (List.mem_append_left _ hgone)
    rcases hp with hp | ⟨tid, call, hcall⟩ | ⟨func, hfunc, hp⟩
    · rcases hconn p hp with hsame | hlive
      · exact hold (.inl hsame)
      · exact .inl hlive
    · exact hold (refers_call (hcalls ▸ hcall))
    · exact hold (hp ▸ refers_task (hfuncs hfunc))
  · intro tid p call hcall hlocks
    rw [hcalls] at hcall
    rcases h.locks tid p call hcall hlocks with ⟨hheld, hp⟩
    rw [hmutex, hkept (by simp [hheld])]
    exact ⟨hheld, hp⟩
  · intro hheld hlocked
    rw [hmutex] at hheld
    exact hheld (hunlocked hlocked)

theorem Pointers.mutex_eq_none {past : List SessionEvent} (h : Pointers past s) {p : Nat}
    {place : EstablishPlace} (hplace : s.establishing = some (p, place)) (hlock : place ≠ .lock)
    (hdone : place ≠ .established) : s.mutex = none := by
  by_contra hheld
  exact h.unlocked hheld ⟨p, place, hplace, hlock, hdone⟩

theorem not_locked_of_place {p : Nat} {place : EstablishPlace} (hplace : s.establishing = some (p, place))
    (h : place = .lock ∨ place = .established) : ¬s.Locked := by
  rintro ⟨p', place', heq, hlock, hdone⟩
  rw [hplace] at heq
  cases heq
  exact h.elim hlock hdone

theorem not_locked_of_idle (hidle : s.establishing = none) : ¬s.Locked := by
  rintro ⟨p, place, heq, -⟩
  rw [hidle] at heq
  cases heq

/-- An object that is replaced by another state of it does not vanish. -/
theorem live_setConn {p q : Nat} (c : Connection) (hq : s.conns q ≠ none) :
    (s.setConn p (some c)).conns q ≠ none := by
  by_cases hqp : q = p
  · subst hqp
    simp
  · rwa [conns_setConn_of_ne s hqp]

/-- A step of a thread, which gets its addresses from `conn_` or from where it has been. -/
theorem Pointers.thread {past : List SessionEvent} (h : Pointers past s) (hconns : s'.conns = s.conns)
    (hconn : s'.conn = s.conn) (hplace : s'.establishing = s.establishing)
    (hcalls : ∀ tid p call, s'.calls tid = some (p, call) → s.Refers p)
    (hfuncs : ∀ func ∈ s'.functorList, s.Refers func.conn)
    (hlocks : ∀ tid p call, s'.calls tid = some (p, call) → call.Locks →
      s'.mutex = some tid ∧ s'.conn = some p)
    (hmutex : s'.mutex ≠ none → ¬s.Locked) : Pointers (past ++ []) s' := by
  rw [List.append_nil]
  refine ⟨?_, hlocks, ?_⟩
  · intro p hp
    rw [hconns]
    refine h.known p ?_
    rcases hp with hp | ⟨tid, call, hcall⟩ | ⟨func, hfunc, rfl⟩
    · exact .inl (hconn ▸ hp)
    · exact hcalls tid p call hcall
    · exact hfuncs func hfunc
  · rw [Locked, hplace]
    exact hmutex

theorem Pointers.moves {past : List SessionEvent} (h : Pointers past s) (hobjects : s.Objects)
    (hmoves : s.Moves out s') : Pointers (past ++ out) s' := by
  cases hmoves with
  | newConnection hidle hfree =>
      refine h.loop rfl rfl (List.Subset.refl _) (fun p hp => .inl (live_setConn _ hp)) (fun p => .inl)
        (fun _ => rfl) ?_
      exact fun hlocked => absurd hlocked (not_locked_of_place rfl (.inl rfl))
  | lockOld _ hmutex | lockFirst _ hmutex =>
      exact h.loop rfl rfl (List.Subset.refl _) (fun p => .inl) (fun p => .inl) (fun _ => rfl) fun _ => hmutex
  | destruct hplace hc =>
      have hmutex := h.mutex_eq_none hplace (by simp) (by simp)
      exact h.loop rfl rfl (List.Subset.refl _) (fun p hp => .inl (live_setConn _ hp)) (fun p => .inl)
        (fun _ => rfl) fun _ => hmutex
  | @free p old hplace =>
      have hmutex := h.mutex_eq_none hplace (by simp) (by simp)
      refine h.loop rfl rfl (List.Subset.refl _) ?_ (fun p => .inl) (fun _ => rfl) fun _ => hmutex
      intro q hq
      by_cases hold : q = old
      · subst hold
        exact .inr (List.mem_singleton.mpr rfl)
      · exact .inl ((conns_setConn_of_ne s hold none).symm ▸ hq)
  | @assign p hplace =>
      have hmutex := h.mutex_eq_none hplace (by simp) (by simp)
      refine h.loop rfl rfl (List.Subset.refl _) (fun p => .inl) ?_ (fun hheld => absurd hmutex hheld)
        fun _ => hmutex
      rintro q ⟨⟩
      rcases hobjects.fresh p _ hplace with ⟨c, hc, -⟩
      exact .inr (by simp [hc])
  | established hplace hc =>
      refine h.loop rfl rfl (List.Subset.refl _) (fun p hp => .inl (live_setConn _ hp)) (fun p => .inl)
        (fun _ => rfl) ?_
      exact fun hlocked => absurd hlocked (not_locked_of_idle rfl)
  | use hidle hc ht hsub =>
      refine h.loop rfl rfl hsub (fun p hp => .inl (live_setConn _ hp)) (fun p => .inl) (fun _ => rfl) ?_
      exact fun hlocked => absurd hlocked (not_locked_of_idle hidle)
  | idle => exact (List.append_nil past).symm ▸ h
  | @getConn tid data hcall =>
      have hself : ∀ {p call}, s.conn.map (fun p => (p, ClientCall.getConn data)) = some (p, call) →
          s.conn = some p ∧ call = .getConn data := by
        intro p call hmap
        rcases Option.map_eq_some_iff.mp hmap with ⟨q, hq, heq⟩
        cases heq
        exact ⟨hq, rfl⟩
      refine h.thread rfl rfl rfl ?_ (fun func hfunc => refers_task (s := s) hfunc) ?_ h.unlocked
      · exact refers_setCall fun p call hmap => .inl (hself hmap).1
      · refine calls_setCall_cases ?_ fun tid' p call _ => h.locks tid' p call
        intro p call hmap hlocks
        rw [(hself hmap).2] at hlocks
        exact hlocks.elim
  | @disconnect tid p hconn hmutex hlocked =>
      refine h.thread rfl rfl rfl ?_ (fun func hfunc => refers_task (s := s) hfunc) ?_ fun _ => hlocked
      · refine refers_setCall ?_
        rintro q call ⟨⟩
        exact .inl hconn
      · refine calls_setCall_cases ?_ ?_
        · rintro q call ⟨⟩ -
          exact ⟨rfl, hconn⟩
        · intro tid' q call _ hcall' hlocks
          have hheld := (h.locks tid' q call hcall' hlocks).1
          rw [hmutex] at hheld
          cases hheld
  | @test tid p call task hcall himp =>
      refine h.thread rfl rfl rfl ?_ (fun func hfunc => refers_task (s := s) hfunc) ?_ h.unlocked
      · refine refers_setCall ?_
        rintro q call' ⟨⟩
        exact refers_call hcall
      · refine calls_setCall_cases ?_ fun tid' p call _ => h.locks tid' p call
        rintro q call' ⟨⟩ hlocks
        exact h.locks tid p call hcall (himp hlocks)
  | @leave tid p call functorList hcall hfuncs =>
      refine h.thread rfl rfl rfl ?_ ?_ ?_ ?_
      · exact refers_setCall (s := s) (by simp)
      · intro func hfunc
        rcases hfuncs func hfunc with hold | rfl
        · exact refers_task hold
        · exact refers_call hcall
      · refine calls_setCall_cases (by simp) ?_
        intro tid' q call' hne hcall' hlocks
        rcases h.locks tid' q call' hcall' hlocks with ⟨hheld, hq⟩
        refine ⟨?_, hq⟩
        change (if s.mutex = some tid then none else s.mutex) = some tid'
        rw [if_neg, hheld]
        rw [hheld]
        exact fun heq => hne (Option.some.inj heq)
      · intro hheld
        refine h.unlocked fun hnone => hheld ?_
        change (if s.mutex = some tid then none else s.mutex) = none
        rw [hnone]
        rfl

/-- The steps that fail. -/
inductive Breaks (s : ClientUse) : ClientUseStep → ObjectFault → Prop where
  | unnamed {p} : Breaks s (.establishConnection p false) .assertion
  /-- The end of a stream. -/
  | endOfFile {p revent write} : Connection.ReportsRead revent →
      Breaks s (.handEvent p revent .eof write) .useAfterFree
  /-- A thread is in `send`, or about to call it, and `conn_` has been replaced meanwhile. -/
  | stalePointer {tid p call} : s.calls tid = some (p, call) → ¬call.Locks → s.conns p = none →
      Breaks s (.proceed tid) .useAfterFree
  /-- A task has been bound for a connection that has been replaced. -/
  | staleTask {answer shut func functorList} : s.functorList = func :: functorList →
      s.conns func.conn = none → Breaks s (.runTask answer shut) .useAfterFree
  | failsToShut {answer shut func functorList c} : s.functorList = func :: functorList →
      s.conns func.conn = some c → c.FailsToShut shut func.task → Breaks s (.runTask answer shut) .assertion

theorem object_eq {p : Nat} {c : Connection} (hc : s.conns p = some c) : s.object p = pure c := by
  rw [object, hc]

theorem object_fail {p : Nat} (hc : s.conns p = none) : s.object p = Traced.fail .useAfterFree := by
  rw [object, hc]

theorem useConn_eq {p : Nat} {c c' : Connection} {f : Connection → Conn Connection} {events : List ConnEvent}
    (hc : s.conns p = some c) (hf : f c = ⟨events, .ok c'⟩) :
    s.useConn p f = ⟨events.map (.conn p), .ok (s.setConn p (some c'))⟩ := by
  rw [useConn, object_eq hc, pure_bind, hf]
  exact congrArg (Traced.mk · _) (List.append_nil _)

theorem useConn_fail {p : Nat} {c : Connection} {f : Connection → Conn Connection} {events : List ConnEvent}
    {e : ObjectFault} (hc : s.conns p = some c) (hf : f c = ⟨events, .error e⟩) :
    s.useConn p f = ⟨events.map (.conn p), .error e⟩ := by
  rw [useConn, object_eq hc, pure_bind, hf]
  rfl

theorem connEstablished_eq {c : Connection} (hcallback : c.funcs.connCallbackFunc = true)
    (hfresh : c.Fresh) : ∃ c', c.connEstablished = ⟨[.connCallbackFunc .eConnected], .ok c'⟩ ∧
      c'.Open ∧ c'.funcs = c.funcs := by
  rcases hfresh with ⟨-, ev, hev, hbound⟩
  refine ⟨{ c with state := .eConnected, event := some ev.enableRead }, ?_, ⟨rfl, _, rfl, hbound⟩, rfl⟩
  rw [Connection.connEstablished, if_pos hcallback, Traced.emit_bind,
    Connection.updateEvent_eq (by exact hev)]
  rfl

/-- The rest of `establishConnection` never fails. -/
theorem establish_moves (h : s.Objects) (ha : s.Allowed .establish) :
    ∃ out s', s.establish = ⟨out, .ok s'⟩ ∧ s.Moves out s' := by
  rcases ha with ⟨p, place, hplace, hmutex⟩
  rw [establish, hplace]
  cases place with
  | lock =>
      by_cases hconn : s.conn = none
      · refine ⟨[], _, ?_, .lockFirst hplace (hmutex rfl) hconn⟩
        simp only [hconn]
        rfl
      · rcases Option.ne_none_iff_exists'.mp hconn with ⟨old, hold⟩
        refine ⟨[], _, ?_, .lockOld hplace (hmutex rfl) hold⟩
        simp only [hold]
        rfl
  | destruct old =>
      have hcurrent := h.current old (h.old p old (.inl hplace))
      simp only [Current, hplace] at hcurrent
      rcases hcurrent with ⟨c, hc, hopen⟩
      refine ⟨_, _, ?_, .destruct hplace hc⟩
      dsimp only
      rw [useConn_eq hc (Connection.destruct_eq hopen)]
      exact congrArg (Traced.mk · _) (List.append_nil _)
  | free old =>
      have hcurrent := h.current old (h.old p old (.inr hplace))
      simp only [Current, hplace] at hcurrent
      rcases hcurrent with ⟨c, hc, -⟩
      refine ⟨_, _, ?_, .free hplace⟩
      dsimp only
      rw [object_eq hc]
      rfl
  | assign => exact ⟨_, _, rfl, .assign hplace⟩
  | established =>
      rcases h.fresh p _ hplace with ⟨c, hc, hfresh⟩
      rcases connEstablished_eq ((h.funcs p c hc).symm ▸ h.callback) hfresh with ⟨c', heq, hopen, hfuncs⟩
      refine ⟨_, _, ?_, .established hplace hc hopen hfuncs⟩
      dsimp only
      rw [useConn_eq hc heq]
      rfl

/-- `conn_` is there when the loop does not hold `mutex_`. -/
theorem Objects.live_of_unlocked (h : s.Objects) {q : Nat} (hq : s.conn = some q) (hlocked : ¬s.Locked) :
    s.conns q ≠ none := by
  have hcurrent := h.current q hq
  cases hplace : s.establishing with
  | none =>
      rcases h.isOpen hplace hq with ⟨c, hc, -⟩
      simp [hc]
  | some x =>
      rcases x with ⟨p, place⟩
      have hlock : place ≠ .lock → place ≠ .established → False := fun hne hne' =>
        hlocked ⟨p, place, hplace, hne, hne'⟩
      simp only [Current, hplace] at hcurrent
      cases place with
      | lock =>
          rcases hcurrent with ⟨c, hc, -⟩
          simp [hc]
      | established =>
          rcases h.fresh p _ hplace with ⟨c, hc, -⟩
          subst hcurrent
          simp [hc]
      | _ => exact (hlock (by simp) (by simp)).elim

/-- The test of a state by a thread. -/
theorem test_moves {tid p : Nat} {call : ClientCall} {c : Connection} (task : ClientTask)
    (hcall : s.calls tid = some (p, call)) (hlocks : (ClientCall.runInLoop task).Locks → call.Locks)
    (hc : s.conns p = some c) : ∃ out s', s.test tid p task = ⟨out, .ok s'⟩ ∧ s.Moves out s' := by
  rw [ClientUse.test, object_eq hc, pure_bind]
  split
  · exact ⟨_, _, rfl, .test hcall hlocks⟩
  · have hkept : ∀ func ∈ s.functorList, func ∈ s.functorList ∨ func.conn = p := fun func => .inl
    exact ⟨_, _, rfl, .leave hcall hkept⟩

/-- A step succeeds as `Moves` says, or fails as `Breaks` says and at most ends a session. -/
def Does (s : ClientUse) (a : ClientUseStep) : Prop :=
  (∃ out s', s.step a = ⟨out, .ok s'⟩ ∧ s.Moves out s' ∧ ∀ e, ¬s.Breaks a e) ∨
    ∃ out e, s.step a = ⟨out, .error e⟩ ∧ s.Breaks a e ∧
      ∃ current, out.foldlM session s.current = some current

/-- A thread goes on unless it comes too late. -/
theorem does_proceed {past : List SessionEvent} (h : s.Objects) (hp : Pointers past s) {tid : Nat}
    (ha : s.Allowed (.proceed tid)) : s.Does (.proceed tid) := by
  rcases Option.ne_none_iff_exists'.mp ha with ⟨⟨p, call⟩, hcall⟩
  rw [Does, show s.step (.proceed tid) = s.proceed tid from rfl, proceed.eq_def, hcall]
  cases hc : s.conns p with
  | some c =>
      left
      have hnot : ∀ e, ¬s.Breaks (.proceed tid) e := by
        rintro e (_ | _ | ⟨hcall', -, hnone⟩)
        rcases Option.some.inj (hcall.symm.trans hcall')
        rw [hc] at hnone
        cases hnone
      cases call with
      | getConn data =>
          rcases test_moves (.sendInReactor data) hcall id hc with ⟨out, s', hstep, hmoves⟩
          exact ⟨out, s', hstep, hmoves, hnot⟩
      | disconnect =>
          rcases test_moves .shutdownInReactor hcall (fun _ => trivial) hc with
            ⟨out, s', hstep, hmoves⟩
          exact ⟨out, s', hstep, hmoves, hnot⟩
      | runInLoop task =>
          have hpushed : ∀ func ∈ s.functorList ++ [⟨p, task⟩], func ∈ s.functorList ∨ func.conn = p := by
            intro func hfunc
            rcases List.mem_append.mp hfunc with hold | hnew
            · exact .inl hold
            · rw [List.mem_singleton.mp hnew]
              exact .inr rfl
          refine ⟨_, _, ?_, .leave hcall hpushed, hnot⟩
          dsimp only
          rw [object_eq hc, pure_bind]
          rfl
  | none =>
      right
      have hnot : ¬call.Locks := by
        intro hlocks
        rcases hp.locks tid p call hcall hlocks with ⟨hheld, hconn⟩
        exact h.live_of_unlocked hconn (hp.unlocked (by simp [hheld])) hc
      refine ⟨[], .useAfterFree, ?_, .stalePointer hcall hnot hc, _, rfl⟩
      cases call with
      | getConn data | disconnect =>
          dsimp only
          rw [ClientUse.test, object_fail hc, Traced.fail_bind]
          rfl
      | runInLoop task =>
          dsimp only
          rw [object_fail hc, Traced.fail_bind]
          rfl

theorem does_handEvent (h : s.Objects) {p : Nat} {revent : BitVec 32} {read : ReadAnswer}
    {write : WriteAnswer} (ha : s.Allowed (.handEvent p revent read write)) :
    s.Does (.handEvent p revent read write) := by
  rcases ha with ⟨hidle, c, hc, -⟩
  have hconn := h.conn_eq hidle (p := p) (by simp [hc])
  rcases h.isOpen hidle hconn with ⟨c₀, hc₀, hopen⟩
  rcases Option.some.inj (hc₀.symm.trans hc)
  rcases Connection.handEvent_open hopen revent read write with ⟨⟨hread, rfl⟩, heq⟩ | ⟨hend, out, c', heq, ht⟩
  · refine .inr ⟨_, _, useConn_fail hc heq, .endOfFile hread, none, ?_⟩
    rw [current_eq hconn hc]
    exact hopen.session_closing ((h.funcs p c hc).symm ▸ h.callback) p
  · refine .inl ⟨_, _, useConn_eq hc heq, .use hidle hc ht (List.Subset.refl _), ?_⟩
    rintro e (_ | hread)
    exact hend ⟨hread, rfl⟩

theorem does_runTask (h : s.Objects) {answer : WriteAnswer} {shut : Bool}
    (ha : s.Allowed (.runTask answer shut)) : s.Does (.runTask answer shut) := by
  rcases ha with ⟨hidle, hne⟩
  rcases List.exists_cons_of_ne_nil hne with ⟨func, functorList, hlist⟩
  have hstep : s.step (.runTask answer shut) = ({ s with functorList := functorList } : ClientUse).useConn
      func.conn (runTask · answer shut func.task) := by
    rw [step.eq_def]
    simp only [hlist]
  rw [Does, hstep]
  cases hc : s.conns func.conn with
  | none =>
      refine .inr ⟨[], .useAfterFree, ?_, .staleTask hlist hc, _, rfl⟩
      have hobject := object_fail (s := { s with functorList := functorList }) hc
      rw [useConn, hobject, Traced.fail_bind]
      rfl
  | some c =>
      rcases h.isOpen hidle (h.conn_eq hidle (p := func.conn) (by simp [hc])) with ⟨c₀, hc₀, hopen⟩
      rcases Option.some.inj (hc₀.symm.trans hc)
      rcases Connection.runTask_open hopen answer shut func.task with
        ⟨hnot, out, c', heq, ht⟩ | ⟨hfails, heq⟩
      · refine .inl ⟨_, _, useConn_eq hc heq, .use hidle hc ht (by simp [hlist]), ?_⟩
        rintro e (_ | _ | _ | ⟨hlist', hnone⟩ | ⟨hlist', hc', hfails⟩)
        · rcases List.cons.inj (hlist.symm.trans hlist') with ⟨rfl, -⟩
          rw [hc] at hnone
          cases hnone
        · rcases List.cons.inj (hlist.symm.trans hlist') with ⟨rfl, -⟩
          rcases Option.some.inj (hc.symm.trans hc')
          exact hnot hfails
      · have hfail := useConn_fail (s := { s with functorList := functorList })
          (f := (runTask · answer shut func.task)) hc heq
        exact .inr ⟨[], .assertion, hfail, .failsToShut hlist hc hfails, _, rfl⟩

theorem does_step {past : List SessionEvent} (h : s.Objects) (hp : Pointers past s) {a : ClientUseStep}
    (ha : s.Allowed a) : s.Does a := by
  cases a with
  | establishConnection p named =>
      cases named with
      | false => exact .inr ⟨[], _, rfl, .unnamed, _, rfl⟩
      | true => exact .inl ⟨_, _, rfl, .newConnection ha.1 ha.2, nofun⟩
  | establish =>
      rcases establish_moves h ha with ⟨out, s', hstep, hmoves⟩
      exact .inl ⟨out, s', hstep, hmoves, nofun⟩
  | handEvent p revent read write => exact does_handEvent h ha
  | runTask answer shut => exact does_runTask h ha
  | send data answer =>
      cases hconn : s.conn with
      | none =>
          refine .inl ⟨[], s, ?_, .idle, nofun⟩
          rw [step.eq_def]
          simp only [hconn]
          rfl
      | some p =>
          rcases h.isOpen ha hconn with ⟨c, hc, hopen⟩
          rcases Connection.speaks_sendAtOnce hopen data answer with ⟨out, c', heq, ht⟩
          refine .inl ⟨_, _, ?_, .use ha hc ht (List.Subset.refl _), nofun⟩
          rw [step.eq_def]
          simp only [hconn]
          exact useConn_eq hc heq
  | getConn tid data => exact .inl ⟨_, _, rfl, .getConn ha, nofun⟩
  | disconnect tid =>
      rcases ha with ⟨-, hmutex, hlocked⟩
      cases hconn : s.conn with
      | none =>
          refine .inl ⟨[], s, ?_, .idle, nofun⟩
          rw [step.eq_def]
          simp only [hconn]
          rfl
      | some p =>
          refine .inl ⟨[], { s with mutex := some tid }.setCall tid (some (p, .disconnect)), ?_,
            .disconnect hconn hmutex hlocked, nofun⟩
          rw [step.eq_def]
          simp only [hconn]
          rfl
  | proceed tid => exact does_proceed h hp ha

theorem Breaks.unique {a : ClientUseStep} {e e' : ObjectFault} (h : s.Breaks a e) (h' : s.Breaks a e') :
    e = e' := by
  have hone : ∀ {func func' : BoundTask} {functorList functorList' : List BoundTask} {c : Connection},
      s.functorList = func :: functorList → s.conns func.conn = none →
      s.functorList = func' :: functorList' → s.conns func'.conn ≠ some c := by
    intro func func' functorList functorList' c hlist hnone hlist' hc
    rcases List.cons.inj (hlist.symm.trans hlist') with ⟨rfl, -⟩
    rw [hnone] at hc
    cases hc
  cases h with
  | staleTask hlist hnone =>
      cases h' with
      | staleTask => rfl
      | failsToShut hlist' hc => exact absurd hc (hone hlist hnone hlist')
  | failsToShut hlist hc =>
      cases h' with
      | staleTask hlist' hnone => exact absurd hc (hone hlist' hnone hlist)
      | failsToShut => rfl
  | _ =>
      cases h'
      rfl

end ClientUse

/-- What holds of a client when `past` has happened. -/
def ClientUse.Follows (past : List SessionEvent) (s : ClientUse) : Prop :=
  s.Objects ∧ ClientUse.Pointers past s ∧ InSessions past s.current

namespace ClientUse

variable {s s' : ClientUse} {funcs : ConnFuncs}

theorem Follows.step {past : List SessionEvent} (h : Follows past s) {a : ClientUseStep} (ha : s.Allowed a)
    (hok : (s.step a).result = .ok s') : Follows (past ++ (s.step a).out) s' := by
  rcases h with ⟨hobjects, hpointers, hsessions⟩
  rcases does_step hobjects hpointers ha with ⟨out, s'', hstep, hmoves, -⟩ | ⟨out, e, hstep, -⟩
  · rw [hstep] at hok ⊢
    rcases Except.ok.inj hok
    exact ⟨hobjects.moves hmoves, hpointers.moves hobjects hmoves,
      hsessions.append (hobjects.session_moves hmoves)⟩
  · rw [hstep] at hok
    cases hok

theorem Follows.run {past : List SessionEvent} (h : Follows past s) {steps : List ClientUseStep}
    (hl : clientUseMachine.Legal s steps) (hrun : (clientUseMachine.run s steps).result = .ok s') :
    Follows (past ++ (clientUseMachine.run s steps).out) s' :=
  Machine.run_history (P := Follows) (fun _ _ _ _ hs ha hok => hs.step ha hok) h hl hrun

end ClientUse

end WebsocketCpp
