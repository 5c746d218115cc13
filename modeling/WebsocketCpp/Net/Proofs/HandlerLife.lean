import WebsocketCpp.Net.Proofs.Teardown

/-!
# The life of a handler

What every step that succeeds does to `event_`: `handleClose` deletes it, and nothing else does.
-/

namespace WebsocketCpp

namespace Connection

variable {c c' : Connection}

theorem event_of_handler {α : Type} {f : EventHandler NetCallback → Conn α} {a : α}
    (h : (c.handler >>= f).result = .ok a) : ∃ ev, c.event = some ev := by
  rcases Traced.result_bind h with ⟨ev, hev, -⟩
  rw [handler] at hev
  cases hevent : c.event with
  | some ev => exact ⟨ev, rfl⟩
  | none =>
      rw [hevent] at hev
      cases hev

theorem sendInReactor_ok {data : List UInt8} {answer : WriteAnswer}
    (hok : (c.sendInReactor data answer).result = .ok c') :
    c'.funcs = c.funcs ∧ (c'.event = none ↔ c.event = none) := by
  cases hevent : c.event with
  | some ev =>
      obtain ⟨out, c'', ev', heq, -, hkeeps⟩ :=
        sendInReactor_refines hevent (.new ⟨0, fun _ => 0⟩) data answer
      rw [heq] at hok
      rcases Except.ok.inj hok with rfl
      exact ⟨hkeeps.funcs, by simp [hkeeps.event]⟩
  | none =>
      rw [sendInReactor] at hok
      split at hok
      · exact Except.ok.inj hok ▸ ⟨rfl, iff_of_true hevent rfl⟩
      · rcases Traced.result_bind hok with ⟨now, hnow, hrest⟩
        rw [writeNow.eq_def] at hnow
        split at hnow
        · rcases event_of_handler hnow with ⟨ev, hev⟩
          cases hevent.symm.trans hev
        · rcases Except.ok.inj hnow with rfl
          exact Except.ok.inj hrest ▸ ⟨rfl, iff_of_true hevent rfl⟩

theorem handleClose_ok (hok : c.handleClose.result = .ok c') :
    c.event ≠ none ∧ c' = { c with state := .eDisconnected, event := none } := by
  rcases event_of_handler hok with ⟨ev, hev⟩
  rw [handleClose_eq hev] at hok
  exact ⟨by simp [hev], (Except.ok.inj hok).symm⟩

theorem shutdownInReactor_ok (hok : c.shutdownInReactor.result = .ok c') : c' = c := by
  rcases event_of_handler hok with ⟨ev, hev⟩
  rw [shutdownInReactor, handler_eq hev, pure_bind] at hok
  cases hwriteable : ev.isWriteable with
  | true =>
      rw [hwriteable] at hok
      exact (Except.ok.inj hok).symm
  | false =>
      rw [hwriteable] at hok
      exact (Except.ok.inj hok).symm

/-- A read that does not find the end of the stream. -/
theorem handleRead_ok {answer : ReadAnswer} (hanswer : answer ≠ .eof)
    (hok : (c.handleRead answer).result = .ok c') : c' = c := by
  rcases event_of_handler hok with ⟨ev, hev⟩
  rw [handleRead.eq_def, handler_eq hev, pure_bind] at hok
  cases answer with
  | eof => exact absurd rfl hanswer
  | failed =>
      change c.handleError.result = .ok c' at hok
      rw [handleError, handler_eq hev, pure_bind] at hok
      exact (Except.ok.inj hok).symm
  | data bytes =>
      cases hfunc : c.funcs.msgRecvFunc with
      | true =>
          simp only [hfunc, if_true] at hok
          exact (Except.ok.inj hok).symm
      | false =>
          simp only [hfunc] at hok
          exact (Except.ok.inj hok).symm

theorem connEstablished_ok (hok : c.connEstablished.result = .ok c') :
    c'.event ≠ none ∧ c.event ≠ none ∧ c'.funcs = c.funcs := by
  have hupdate : (({ c with state := .eConnected } : Connection).updateEvent
      EventHandler.enableRead).result = .ok c' := by
    simp only [connEstablished] at hok
    split at hok
    · exact hok
    · exact hok
  rcases event_of_handler hupdate with ⟨ev, hev⟩
  rw [updateEvent_eq hev] at hupdate
  rcases Except.ok.inj hupdate with rfl
  exact ⟨nofun, by rw [show c.event = some ev from hev]; nofun, rfl⟩

end Connection

namespace ConnUse

variable {u u' : ConnUse} {a : ConnStep}

/-- A step that succeeds ends the connection if it is a call of `handleClose`, and otherwise leaves it
as open as it was. -/
theorem step_ok (hok : (u.step a).result = .ok u') : u'.conn.funcs = u.conn.funcs ∧
    ((u.Closes a ∧ u.conn.event ≠ none ∧ u'.conn.event = none) ∨
      ¬u.Closes a ∧ (u'.conn.event = none ↔ u.conn.event = none)) := by
  cases a with
  | handleRead answer =>
      rcases Traced.result_bind hok with ⟨conn, hconn, hu'⟩
      rcases Except.ok.inj hu' with rfl
      by_cases heof : answer = .eof
      · subst heof
        rcases Connection.event_of_handler hconn with ⟨ev, hev⟩
        rw [Connection.handleRead, Connection.handler_eq hev, pure_bind] at hconn
        rcases Connection.handleClose_ok hconn with ⟨hopen, rfl⟩
        exact ⟨rfl, .inl ⟨rfl, hopen, rfl⟩⟩
      · rcases Connection.handleRead_ok heof hconn with rfl
        exact ⟨rfl, .inr ⟨heof, .rfl⟩⟩
  | runTask answer =>
      rw [step] at hok
      cases htasks : u.functorList with
      | nil =>
          rw [htasks] at hok
          exact Except.ok.inj hok ▸ ⟨rfl, .inr ⟨by simp [Closes, htasks], .rfl⟩⟩
      | cons task functorList =>
          rw [htasks] at hok
          rcases Traced.result_bind hok with ⟨conn, hconn, hu'⟩
          rcases Except.ok.inj hu' with rfl
          cases task with
          | sendInReactor data =>
              rcases Connection.sendInReactor_ok hconn with ⟨hfuncs, hevent⟩
              exact ⟨hfuncs, .inr ⟨by simp [Closes, htasks], hevent⟩⟩
          | handleClose =>
              rcases Connection.handleClose_ok hconn with ⟨hopen, rfl⟩
              exact ⟨rfl, .inl ⟨by simp [Closes, htasks], hopen, rfl⟩⟩
          | shutdownInReactor =>
              rcases Connection.shutdownInReactor_ok hconn with rfl
              exact ⟨rfl, .inr ⟨by simp [Closes, htasks], .rfl⟩⟩
  | send tid data => exact Except.ok.inj hok ▸ ⟨rfl, .inr ⟨id, .rfl⟩⟩
  | forceClose tid => exact Except.ok.inj hok ▸ ⟨rfl, .inr ⟨id, .rfl⟩⟩
  | shutdown tid => exact Except.ok.inj hok ▸ ⟨rfl, .inr ⟨id, .rfl⟩⟩
  | proceed tid =>
      rcases Except.ok.inj hok with rfl
      rw [proceed]
      split <;> exact ⟨rfl, .inr ⟨id, .rfl⟩⟩

/-- A call of `handleClose` succeeds if the connection has its handler. -/
theorem step_of_closes (h : u.Closes a) (hopen : u.conn.event ≠ none) :
    ∃ u', u.step a = ⟨u.conn.funcs.closing, .ok u'⟩ := by
  rcases Option.ne_none_iff_exists'.mp hopen with ⟨ev, hev⟩
  cases a with
  | handleRead answer =>
      obtain rfl : answer = .eof := h
      rw [step, Connection.handleRead, Connection.handler_eq hev, pure_bind,
        Connection.handleClose_eq hev, Traced.mk_bind]
      exact ⟨_, congrArg (Traced.mk · _) (List.append_nil _)⟩
  | runTask answer =>
      obtain ⟨functorList, htasks⟩ : ∃ functorList, u.functorList = .handleClose :: functorList :=
        List.head?_eq_some_iff.mp h
      rw [step, htasks]
      simp only [Connection.runTask, Connection.handleClose_eq hev, Traced.mk_bind]
      exact ⟨_, congrArg (Traced.mk · _) (List.append_nil _)⟩
  | send tid data => exact absurd h id
  | forceClose tid => exact absurd h id
  | shutdown tid => exact absurd h id
  | proceed tid => exact absurd h id

end ConnUse

end WebsocketCpp
