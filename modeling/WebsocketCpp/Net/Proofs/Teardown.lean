import WebsocketCpp.Net.Proofs.ConnectionRefines

/-!
# Closing a connection

`state_` is tested when a task is posted and not when it is executed. `tornDownOnce`: a connection is
closed once and not used afterwards if `handleClose` never runs while another task that follows
`event_` is on its way. Otherwise that task follows a null pointer.
-/

namespace WebsocketCpp

/-- The task follows `event_` whatever the state is. -/
def ConnTask.UsesEvent : ConnTask → Prop
  | .sendInReactor _ => False
  | .handleClose | .shutdownInReactor => True

/-- The call will post a task that does. -/
def ConnCall.UsesEvent : ConnCall → Prop
  | .forceClose => True
  | .runInLoop task => task.UsesEvent

namespace ConnUse

/-- The step is a call of `handleClose`. -/
def Closes (u : ConnUse) : ConnStep → Prop
  | .handleRead answer => answer = .eof
  | .runTask _ => u.functorList.head? = some .handleClose
  | _ => False

/-- The tasks that are still queued after the step has taken its own. -/
def others (u : ConnUse) : ConnStep → List ConnTask
  | .runTask _ => u.functorList.tail
  | _ => u.functorList

/-- Nothing that is queued, or that a thread is about to post, follows `event_`. -/
def Unused (functorList : List ConnTask) (calls : Nat → Option ConnCall) : Prop :=
  (∀ task ∈ functorList, ¬task.UsesEvent) ∧ ∀ tid, ∀ call ∈ calls tid, ¬call.UsesEvent

/-- If the step closes the connection, nothing else is about to use `event_`. -/
def ClosesAlone (u : ConnUse) (a : ConnStep) : Prop := u.Closes a → Unused (u.others a) u.calls

end ConnUse

/-- The disconnected state is reported at most once, `closeFunc_` is called at most once, and `event_`
is not followed when it is null. -/
def TornDownOnce (x : Traced ConnEvent ObjectFault ConnUse) : Prop :=
  x.out.count (.connCallbackFunc .eDisconnected) ≤ 1 ∧ x.out.count .closeFunc ≤ 1 ∧
    x.result ≠ .error .nullPointer

/-- The events of `handleClose`. -/
def ConnFuncs.closing (funcs : ConnFuncs) : List ConnEvent :=
  (if funcs.connCallbackFunc then [.connCallbackFunc .eDisconnected] else []) ++
    if funcs.closeFunc then [.closeFunc] else []

/-- One of the two that a connection may have only once. -/
def ConnEvent.Closing (e : ConnEvent) : Prop := e = .connCallbackFunc .eDisconnected ∨ e = .closeFunc

namespace Connection

variable {c : Connection} {ev : EventHandler NetCallback}

theorem handleClose_eq (h : c.event = some ev) :
    c.handleClose =
      ⟨c.funcs.closing, .ok { c with state := .eDisconnected, event := none }⟩ := by
  obtain ⟨state, event, writeBuffer, ⟨connCallbackFunc, msgRecvFunc, writeCompleteFunc, closeFunc⟩⟩ := c
  obtain rfl : event = some ev := h
  cases connCallbackFunc <;> cases closeFunc <;> rfl

/-- At the end of the stream `handEvent` itself goes on in the handler that has been deleted. -/
theorem handEvent_eof (h : c.event = some ev) (hread : ev.readCallback = some .handleRead)
    (write : WriteAnswer) :
    c.handEvent POLLIN .eof write = ⟨c.funcs.closing, .error .useAfterFree⟩ := by
  have hcalls : (ev.setRevents POLLIN).handEvent = [.handleRead] := by
    rw [EventHandler.handEvent_pollin, hread]
    rfl
  have hevent : ({ c with event := some (ev.setRevents POLLIN) } : Connection).event =
    some (ev.setRevents POLLIN) := rfl
  rw [handEvent, updateEvent_eq h, pure_bind, handler_eq hevent, pure_bind, hcalls, List.foldlM_cons,
    call, handleRead, handler_eq hevent, pure_bind, handleClose_eq hevent, Traced.mk_bind]
  simp

/-- What is neither `handleClose` nor a use of a deleted handler leaves the state and the handler. -/
structure Quiet (c : Connection) (x : Conn Connection) : Prop where
  closing : ∀ e ∈ x.out, ¬e.Closing
  result : ∃ c', x.result = .ok c' ∧ c'.state = c.state ∧ (c'.event = none ↔ c.event = none)

theorem quiet_pure (c : Connection) : c.Quiet (pure c) := ⟨nofun, c, rfl, rfl, .rfl⟩

theorem quiet_emit (c : Connection) {e : ConnEvent} (he : ¬e.Closing) :
    c.Quiet (do Traced.emit e; pure c) := by
  refine ⟨?_, c, rfl, rfl, .rfl⟩
  intro e' he'
  rw [List.mem_singleton.mp he']
  exact he

theorem quiet_sendInReactor (h : c.event = none → c.state = .eDisconnected) (data : List UInt8)
    (answer : WriteAnswer) : c.Quiet (c.sendInReactor data answer) := by
  cases hev : c.event with
  | none =>
      rw [sendInReactor, if_pos (h hev)]
      exact quiet_pure c
  | some ev =>
      obtain ⟨out, c', ev', heq, -, hkeeps⟩ :=
        sendInReactor_refines hev (.new ⟨0, fun _ => 0⟩) data answer
      rw [heq]
      refine ⟨?_, c', rfl, hkeeps.state, ?_⟩
      · intro e he
        obtain ⟨e', -, rfl⟩ := List.mem_map.mp he
        rintro (hsend | hsend) <;> cases hsend
      · rw [hkeeps.event, hev]
        exact iff_of_false (Option.some_ne_none _) (Option.some_ne_none _)

theorem quiet_shutdownInReactor (h : c.event = some ev) : c.Quiet c.shutdownInReactor := by
  rw [shutdownInReactor, handler_eq h, pure_bind]
  cases ev.isWriteable with
  | true => exact quiet_pure c
  | false => exact quiet_emit c (by rintro (hclose | hclose) <;> cases hclose)

theorem quiet_handleRead (h : c.event = some ev) {answer : ReadAnswer} (hanswer : answer ≠ .eof) :
    c.Quiet (c.handleRead answer) := by
  rw [handleRead.eq_def, handler_eq h, pure_bind]
  cases answer with
  | eof => exact absurd rfl hanswer
  | failed =>
      change c.Quiet c.handleError
      rw [handleError, handler_eq h, pure_bind]
      exact quiet_emit c (by rintro (hclose | hclose) <;> cases hclose)
  | data bytes =>
      cases c.funcs.msgRecvFunc with
      | false => exact quiet_pure c
      | true => exact quiet_emit c (by rintro (hclose | hclose) <;> cases hclose)

end Connection

namespace ConnUse

variable {u u' : ConnUse}

/-- After the end of a connection, what is still on its way does not follow `event_`. -/
def Sound (u : ConnUse) : Prop :=
  u.conn.event = none → u.conn.state = .eDisconnected ∧ Unused u.functorList u.calls

/-- What a step of a sound connection does: it closes the connection, or leaves it as open as it
was. -/
structure Steps (u : ConnUse) (a : ConnStep) (out : List ConnEvent) (u' : ConnUse) : Prop where
  sound : u'.Sound
  closing : (u.conn.event ≠ none ∧ out = u.conn.funcs.closing ∧ u'.conn.event = none) ∨
    (∀ e ∈ out, ¬e.Closing) ∧ (u'.conn.event = none ↔ u.conn.event = none)

/-- A step in which the connection is used quietly. -/
theorem steps_of_quiet (h : u.Sound) {a : ConnStep} {x : Conn Connection} (hquiet : u.conn.Quiet x)
    {functorList : List ConnTask} (hsub : functorList ⊆ u.functorList)
    (hstep : u.step a = do pure { u with conn := ← x, functorList := functorList }) :
    ∃ out u', u.step a = ⟨out, .ok u'⟩ ∧ u.Steps a out u' := by
  obtain ⟨hclosing, c', hresult, hstate, hevent⟩ := hquiet
  rw [hstep, Traced.bind_of_ok hresult]
  refine ⟨_, _, rfl, ?_, .inr ⟨fun e he => hclosing e ?_, hevent⟩⟩
  · intro hnone
    obtain ⟨hdis, htasks, hcalls⟩ := h (hevent.mp hnone)
    exact ⟨hstate.trans hdis, fun task htask => htasks task (hsub htask), hcalls⟩
  · rwa [Traced.out_pure, List.append_nil] at he

/-- A step that closes the connection while nothing else is about to use it. -/
theorem steps_of_close {ev : EventHandler NetCallback} (hev : u.conn.event = some ev)
    {a : ConnStep} {functorList : List ConnTask} (hunused : Unused functorList u.calls)
    (hstep : u.step a = do pure { u with conn := ← u.conn.handleClose, functorList := functorList }) :
    ∃ out u', u.step a = ⟨out, .ok u'⟩ ∧ u.Steps a out u' := by
  rw [hstep, Connection.handleClose_eq hev, Traced.mk_bind]
  refine ⟨_, _, rfl, fun _ => ⟨rfl, hunused⟩, .inl ⟨by simp [hev], ?_, rfl⟩⟩
  exact List.append_nil _

/-- Whoever makes or continues a call, the others are where they were. -/
theorem unused_setCall {functorList : List ConnTask} (htasks : ∀ task ∈ functorList, ¬task.UsesEvent)
    (hcalls : ∀ tid, ∀ call ∈ u.calls tid, ¬call.UsesEvent) {tid : Nat} {call : Option ConnCall}
    (hcall : ∀ c ∈ call, ¬c.UsesEvent) : Unused functorList (u.setCall tid call).calls := by
  refine ⟨htasks, ?_⟩
  intro tid' c hc
  by_cases heq : tid' = tid
  · subst heq
    rw [calls_setCall_self] at hc
    exact hcall c hc
  · rw [calls_setCall_of_ne u heq] at hc
    exact hcalls tid' c hc

/-- Another thread makes a call that tests the state first. -/
theorem steps_of_test (h : u.Sound) {a : ConnStep} {tid : Nat} {call : ConnCall}
    (hstep : u.step a =
      pure (u.setCall tid (if u.conn.state = .eConnected then some call else none))) :
    ∃ out u', u.step a = ⟨out, .ok u'⟩ ∧ u.Steps a out u' := by
  refine ⟨[], _, hstep, ?_, .inr ⟨nofun, .rfl⟩⟩
  intro hnone
  obtain ⟨hdis, htasks, hcalls⟩ := h hnone
  exact ⟨hdis, unused_setCall htasks hcalls (by simp [hdis])⟩

theorem steps_proceed (h : u.Sound) (tid : Nat) :
    ∃ out u', u.step (.proceed tid) = ⟨out, .ok u'⟩ ∧ u.Steps (.proceed tid) out u' := by
  rw [step, proceed]
  cases hcall : u.calls tid with
  | none => exact ⟨[], u, rfl, h, .inr ⟨nofun, .rfl⟩⟩
  | some call =>
      cases call with
      | forceClose =>
          refine ⟨[], _, rfl, ?_, .inr ⟨nofun, .rfl⟩⟩
          intro hnone
          -- a connection that is closed has no such call
          exact absurd trivial ((h hnone).2.2 tid _ hcall)
      | runInLoop task =>
          refine ⟨[], _, rfl, ?_, .inr ⟨nofun, .rfl⟩⟩
          intro hnone
          obtain ⟨hdis, htasks, hcalls⟩ := h hnone
          refine ⟨hdis,
            unused_setCall (u := { u with functorList := u.functorList ++ [task] }) ?_ hcalls nofun⟩
          intro task' htask'
          rcases List.mem_append.mp htask' with htask' | htask'
          · exact htasks task' htask'
          · rw [List.mem_singleton.mp htask']
            exact hcalls tid _ hcall

/-- Every step of a sound connection succeeds, if it closes the connection only when nothing else is
about to use it. -/
theorem step_spec (h : u.Sound) {a : ConnStep} (ha : u.Allowed a) (halone : u.ClosesAlone a) :
    ∃ out u', u.step a = ⟨out, .ok u'⟩ ∧ u.Steps a out u' := by
  cases a with
  | handleRead answer =>
      obtain ⟨ev, hev⟩ := Option.ne_none_iff_exists'.mp ha
      by_cases heof : answer = .eof
      · subst heof
        apply steps_of_close hev (halone rfl)
        rw [step, Connection.handleRead, Connection.handler_eq hev, pure_bind]
        rfl
      · exact steps_of_quiet h (Connection.quiet_handleRead hev heof) (List.Subset.refl _) rfl
  | runTask answer =>
      cases htasks : u.functorList with
      | nil => exact absurd htasks ha
      | cons task functorList =>
          have hstep : u.step (.runTask answer) = (do
              pure { u with conn := ← u.conn.runTask answer task, functorList := functorList }) := by
            rw [step, htasks]
          have hsub : functorList ⊆ u.functorList := htasks ▸ List.subset_cons_self ..
          have hopen : task.UsesEvent → ∃ ev, u.conn.event = some ev := fun huses => by
            apply Option.ne_none_iff_exists'.mp
            intro hnone
            exact (h hnone).2.1 task (htasks ▸ List.mem_cons_self ..) huses
          cases task with
          | sendInReactor data =>
              exact steps_of_quiet h
                (Connection.quiet_sendInReactor (fun hnone => (h hnone).1) data answer) hsub hstep
          | handleClose =>
              obtain ⟨ev, hev⟩ := hopen trivial
              refine steps_of_close hev ?_ hstep
              have hunused := halone (by simp [Closes, htasks])
              rwa [others, htasks] at hunused
          | shutdownInReactor =>
              obtain ⟨ev, hev⟩ := hopen trivial
              exact steps_of_quiet h (Connection.quiet_shutdownInReactor hev) hsub hstep
  | send tid data => exact steps_of_test h rfl
  | forceClose tid => exact steps_of_test h rfl
  | shutdown tid => exact steps_of_test h rfl
  | proceed tid => exact steps_proceed h tid

theorem sound_invariant : (connMachine.restrict ClosesAlone).Invariant Sound := by
  intro u a u' h ⟨ha, halone⟩ hok
  obtain ⟨out, u'', hstep, hsteps⟩ := step_spec h ha halone
  rw [show (connMachine.restrict ClosesAlone).step u a = _ from hstep] at hok
  obtain rfl := Except.ok.inj hok
  exact hsteps.sound

theorem succeeds_sound : (connMachine.restrict ClosesAlone).Succeeds Sound := by
  intro u a h ⟨ha, halone⟩
  obtain ⟨out, u', hstep, -⟩ := step_spec h ha halone
  exact ⟨u', congrArg Traced.result hstep⟩

/-- `handleClose` has each of its events once. -/
theorem count_closing_le (funcs : ConnFuncs) {e : ConnEvent} (he : e.Closing) :
    funcs.closing.count e ≤ 1 := by
  rw [ConnFuncs.closing]
  rcases he with rfl | rfl <;> cases funcs.connCallbackFunc <;> cases funcs.closeFunc <;> simp

/-- A step pays for an event of the end with the handler. -/
theorem count_step_le (h : u.Sound) {a : ConnStep} (ha : u.Allowed a) (halone : u.ClosesAlone a)
    {e : ConnEvent} (he : e.Closing) (hok : (u.step a).result = .ok u') :
    (u.step a).out.count e + (if u'.conn.event = none then 0 else 1) ≤
      if u.conn.event = none then 0 else 1 := by
  obtain ⟨out, u'', hstep, -, hclosing⟩ := step_spec h ha halone
  rw [hstep] at hok ⊢
  obtain rfl := Except.ok.inj hok
  rcases hclosing with ⟨hopen, rfl, hclosed⟩ | ⟨hquiet, hsame⟩
  · rw [if_pos hclosed, if_neg hopen]
    exact count_closing_le _ he
  · have hnone : out.count e = 0 := List.count_eq_zero.mpr fun hmem => hquiet e hmem he
    simp [hnone, hsame]

/-- An event of the end of a connection comes once. -/
theorem count_out_le (h : u.Sound) {steps : List ConnStep}
    (hlegal : (connMachine.restrict ClosesAlone).Legal u steps) {e : ConnEvent} (he : e.Closing) :
    (connMachine.run u steps).out.count e ≤ 1 := by
  have hbudget : (connMachine.run u steps).out.count e ≤ if u.conn.event = none then 0 else 1 := by
    refine sound_invariant.countP_out (M := connMachine.restrict ClosesAlone)
      (fun u a u' h ha hok => count_step_le h ha.1 ha.2 he hok) ?_ h hlegal
    intro u a e' h ha herr
    obtain ⟨u', hu'⟩ := succeeds_sound u a h ha
    rw [herr] at hu'
    cases hu'
  apply Nat.le_trans hbudget
  split <;> simp

end ConnUse

/-- `connEstablished` gives the connection a handler. -/
theorem Connection.event_of_connEstablished {funcs : ConnFuncs} {conn : Connection}
    (h : (Connection.new funcs).connEstablished.result = .ok conn) : conn.event ≠ none := by
  obtain ⟨connCallbackFunc, msgRecvFunc, writeCompleteFunc, closeFunc⟩ := funcs
  cases connCallbackFunc <;> obtain rfl := Except.ok.inj h <;> exact Option.some_ne_none _

/-- In every run in which `handleClose` is only called when nothing else is about to use `event_`, the
connection is torn down once. -/
theorem tornDownOnce (funcs : ConnFuncs) {conn : Connection}
    (hconn : (Connection.new funcs).connEstablished.result = .ok conn) {steps : List ConnStep}
    (hlegal : (connMachine.restrict ConnUse.ClosesAlone).Legal (.start conn) steps) :
    TornDownOnce (connMachine.run (.start conn) steps) := by
  have hsound : (ConnUse.start conn).Sound := fun hnone =>
    absurd hnone (Connection.event_of_connEstablished hconn)
  refine ⟨ConnUse.count_out_le hsound hlegal (.inl rfl), ConnUse.count_out_le hsound hlegal (.inr rfl),
    ?_⟩
  intro herr
  obtain ⟨u, hu⟩ := ConnUse.sound_invariant.exists_run ConnUse.succeeds_sound hsound hlegal
  rw [show (connMachine.run (.start conn) steps).result = _ from hu] at herr
  cases herr

/-- A connection that has been established, with all callbacks. -/
def openConnection : Connection where
  state := .eConnected
  event := (Connection.new ⟨true, true, true, true⟩).event.map EventHandler.enableRead
  writeBuffer := []
  funcs := ⟨true, true, true, true⟩

/-- Data is posted, and the peer closes the connection before it is sent. -/
theorem tornDownOnce_eof :
    TornDownOnce (connMachine.run (.start openConnection)
      [.send 1 [104, 105], .proceed 1, .handleRead .eof, .runTask (.count 2)]) := by
  apply tornDownOnce ⟨true, true, true, true⟩ rfl
  have hfirst : ConnUse.Unused [.sendInReactor [104, 105]] ((ConnUse.start openConnection).setCall 1
      (some (.runInLoop (.sendInReactor [104, 105])))).calls :=
    ConnUse.unused_setCall (by simp [ConnTask.UsesEvent]) (by simp [ConnUse.start])
      (by simp [ConnCall.UsesEvent, ConnTask.UsesEvent])
  refine Machine.legal_cons ⟨rfl, nofun⟩ rfl ?_
  refine Machine.legal_cons ⟨nofun, nofun⟩ rfl ?_
  refine Machine.legal_cons ⟨nofun, ?_⟩ rfl ?_
  · intro _
    exact ConnUse.unused_setCall hfirst.1 hfirst.2 nofun
  · exact Machine.legal_cons ⟨nofun, nofun⟩ rfl trivial

/-- Another thread forces the connection to close, and the peer closes it before the loop gets there. -/
def forceCloseRun : List ConnStep :=
  [.forceClose 1, .proceed 1, .proceed 1, .handleRead .eof, .runTask (.count 0)]

theorem not_tornDownOnce_forceClose :
    (Connection.new ⟨true, true, true, true⟩).connEstablished.result = .ok openConnection ∧
      connMachine.Legal (.start openConnection) forceCloseRun ∧
      ¬TornDownOnce (connMachine.run (.start openConnection) forceCloseRun) := by
  refine ⟨rfl, ?_, fun h => h.2.2 rfl⟩
  refine Machine.legal_cons rfl rfl ?_
  iterate 3 refine Machine.legal_cons nofun rfl ?_
  exact ⟨nofun, fun _ _ => trivial⟩

end WebsocketCpp
