import WebsocketCpp.Base.Proofs.ReactorTasks
import WebsocketCpp.Misc.Interleaving
import WebsocketCpp.Net.Proofs.ConnectionOutput
import WebsocketCpp.Net.SharedConnection

/-!
# Sending from several threads

`sharedSend`: whatever the threads, the kernel and `poll` do, the bytes that go out are whole blocks. A
block that a thread has given to `send` goes out in one piece and once, or not at all, and the blocks of
one thread go out in the order in which it has sent them. `sharedSend_whole` says when none is left out.
-/

namespace WebsocketCpp

/-! ## Blocks -/

/-- The data that a task sends. -/
def ConnTask.data? : ConnTask → Option (List UInt8)
  | .sendInReactor data => some data
  | _ => none

/-- The data with its sender. -/
def PostedTask.block? (func : PostedTask) : Option (Nat × List UInt8) :=
  func.task.data?.map (Prod.mk func.tid)

/-- The data of a call of `send`. -/
def SharedStep.call? : SharedStep → Option (Nat × List UInt8)
  | .send tid data => some (tid, data)
  | _ => none

/-- What a call will post. -/
def ConnCall.data? : ConnCall → Option (List UInt8)
  | .forceClose => none
  | .runInLoop task => task.data?

namespace SharedEvent

def conn? : SharedEvent → Option ConnEvent
  | .conn e => some e
  | _ => none

/-- A block that has been given to `send`. -/
def sent? : SharedEvent → Option (Nat × List UInt8)
  | .send tid data => some (tid, data)
  | _ => none

/-- A block that has been given to `sendInReactor`. -/
def ran? : SharedEvent → Option (Nat × List UInt8)
  | .loop (.executed func) | .loop (.called func) => func.block?
  | _ => none

@[simp] theorem conn?_loop (e : ReactorEvent PostedTask) : conn? (.loop e) = none := rfl
@[simp] theorem conn?_conn (e : ConnEvent) : conn? (.conn e) = some e := rfl
@[simp] theorem conn?_send (tid : Nat) (data : List UInt8) : conn? (.send tid data) = none := rfl

@[simp] theorem sent?_loop (e : ReactorEvent PostedTask) : sent? (.loop e) = none := rfl
@[simp] theorem sent?_conn (e : ConnEvent) : sent? (.conn e) = none := rfl
@[simp] theorem sent?_send (tid : Nat) (data : List UInt8) : sent? (.send tid data) = some (tid, data) := rfl

@[simp] theorem ran?_conn (e : ConnEvent) : ran? (.conn e) = none := rfl
@[simp] theorem ran?_send (tid : Nat) (data : List UInt8) : ran? (.send tid data) = none := rfl
@[simp] theorem ran?_executed (func : PostedTask) : ran? (.loop (.executed func)) = func.block? := rfl
@[simp] theorem ran?_called (func : PostedTask) : ran? (.loop (.called func)) = func.block? := rfl
@[simp] theorem ran?_pushed (func : PostedTask) : ran? (.loop (.pushed func)) = none := rfl

end SharedEvent

/-- The bytes of the connection that the kernel has taken. -/
def outputOf (events : List SharedEvent) : List UInt8 := takenBytes (events.filterMap SharedEvent.conn?)

/-- The blocks that have been given to `send`, and those that have been given to `sendInReactor`. -/
def sentBlocks (events : List SharedEvent) : List (Nat × List UInt8) := events.filterMap SharedEvent.sent?
def ranBlocks (events : List SharedEvent) : List (Nat × List UInt8) := events.filterMap SharedEvent.ran?

/-- The calls of `send`, whether they find the connection connected or not. -/
def sendCalls (steps : List SharedStep) : List (Nat × List UInt8) := steps.filterMap SharedStep.call?

theorem outputOf_append (es es' : List SharedEvent) : outputOf (es ++ es') = outputOf es ++ outputOf es' := by
  rw [outputOf, List.filterMap_append, takenBytes_append, ← outputOf, ← outputOf]

theorem sentBlocks_append (es es' : List SharedEvent) :
    sentBlocks (es ++ es') = sentBlocks es ++ sentBlocks es' := List.filterMap_append

theorem ranBlocks_append (es es' : List SharedEvent) :
    ranBlocks (es ++ es') = ranBlocks es ++ ranBlocks es' := List.filterMap_append

theorem outputOf_conn (events : List ConnEvent) : outputOf (events.map .conn) = takenBytes events := by
  rw [outputOf, List.filterMap_map]
  congr 1
  exact List.filterMap_some ..

theorem ranBlocks_conn (events : List ConnEvent) : ranBlocks (events.map .conn) = [] := by
  rw [ranBlocks, List.filterMap_map]
  exact List.filterMap_eq_nil_iff.mpr fun _ _ => rfl

theorem sentBlocks_conn (events : List ConnEvent) : sentBlocks (events.map .conn) = [] := by
  rw [sentBlocks, List.filterMap_map]
  exact List.filterMap_eq_nil_iff.mpr fun _ _ => rfl

/-- A task of the connection, with what it does. -/
theorem ranBlocks_task {e : SharedEvent} (func : PostedTask) (he : e.ran? = func.block?)
    (out : List ConnEvent) : ranBlocks (e :: out.map .conn) = func.block?.toList := by
  have hcons : ranBlocks (e :: out.map .conn) = func.block?.toList ++ ranBlocks (out.map .conn) := by
    rw [ranBlocks, List.filterMap_cons, he]
    cases func.block? <;> rfl
  rw [hcons, ranBlocks_conn, List.append_nil]

theorem outputOf_task (e : ReactorEvent PostedTask) (out : List ConnEvent) :
    outputOf (.loop e :: out.map .conn) = takenBytes out := by
  rw [outputOf, List.filterMap_cons_none rfl, ← outputOf, outputOf_conn]

theorem sentBlocks_task (e : ReactorEvent PostedTask) (out : List ConnEvent) :
    sentBlocks (.loop e :: out.map .conn) = [] := by
  rw [sentBlocks, List.filterMap_cons_none rfl, ← sentBlocks, sentBlocks_conn]

namespace Reactor

variable {Task : Type} {s s' : Reactor Task}

/-- A step of the loop starts a task, or it makes nothing visible. -/
theorem Moves.loop_out {out : List (ReactorEvent Task)} (h : s.Moves .loop out s') :
    (∃ func functor, s.phase = .executing (func :: functor) ∧ out = [.executed func]) ∨
      (∀ func functor, s.phase ≠ .executing (func :: functor)) ∧ out = [] := by
  cases h with
  | execute hphase => exact .inl ⟨_, _, hphase, rfl⟩
  | push hcall => rcases hcall with hcall | hcall <;> cases hcall
  | _ => exact .inr ⟨by simp_all, rfl⟩

theorem Moves.proceed_out {tid : Nat} {out : List (ReactorEvent Task)} (h : s.Moves (.proceed tid) out s') :
    out = [] := by
  cases h with
  | push hcall => rcases hcall with hcall | hcall <;> cases hcall
  | _ => rfl

theorem moves_of_eq (h : s.Awake) {a : ReactorStep Task} (ha : s.Allowed a)
    {out : List (ReactorEvent Task)} (heq : s.step a = ⟨out, .ok s'⟩) : s.Moves a out s' := by
  have hmoves := moves_of_result h ha (congrArg Traced.result heq)
  rwa [heq] at hmoves

/-- The step is one of another thread, or of the loop at `poll`. -/
def Spares (s : Reactor Task) (tid : Nat) : ReactorStep Task → Prop
  | .poll _ => True
  | .loop => ¬s.isInLoopThread tid
  | .runInLoop tid' _ | .queueInLoop tid' _ | .proceed tid' => tid ≠ tid'

/-- A thread that could call the reactor still can after such a step. -/
theorem CanCall.moves {tid : Nat} (h : s.CanCall tid) {a : ReactorStep Task}
    {out : List (ReactorEvent Task)} (hmoves : s.Moves a out s') (hother : s.Spares tid a) :
    s'.CanCall tid := by
  have hset : ∀ (r : Reactor Task) tid' call, tid ≠ tid' → r.threadId = s.threadId → r.phase = s.phase →
      r.calls = s.calls → (r.setCall tid' call).CanCall tid := by
    intro r tid' call hne hthread hphase hcalls
    refine ⟨?_, ?_⟩
    · rw [calls_setCall_of_ne r hne, hcalls]
      exact h.1
    · intro hloop
      change r.threadId = tid at hloop
      change (∃ rest, r.phase = _) ∨ ∃ rest, r.phase = _
      rw [hphase]
      exact h.2 (hthread.symm.trans hloop)
  cases hmoves with
  | poll hphase =>
      refine ⟨h.1, fun hloop => ?_⟩
      rcases h.2 hloop with ⟨rest, hrest⟩ | ⟨rest, hrest⟩ <;> rw [hphase] at hrest <;> cases hrest
  | call => exact h
  | push hcall =>
      rcases hcall with rfl | rfl <;> exact hset _ _ _ hother rfl rfl rfl
  | write | noWrite | running | notRunning | writeAgain => exact hset _ _ _ hother rfl rfl rfl
  | _ => exact ⟨h.1, fun hloop => absurd hloop hother⟩

end Reactor

namespace SharedConn

/-- What a step does, one constructor for each way through it. -/
inductive Moves : SharedConn → SharedStep → List SharedEvent → SharedConn → Prop where
  | poll {s activeList loop} : s.loop.Moves (.poll activeList) [] loop →
      Moves s (.poll activeList) [] { s with loop := loop }
  /-- The loop calls nothing of the connection. -/
  | turn {s revent read write loop} : s.loop.Moves .loop [] loop → s.calls s.loop.threadId = none →
      Moves s (.loop revent read write) [] { s with loop := loop }
  | handEvent {s revent read write loop conn out} : s.loop.Moves .loop [] loop →
      s.calls s.loop.threadId = none → s.conn.handEvent revent read write = ⟨out, .ok conn⟩ →
      Moves s (.loop revent read write) (out.map .conn) { s with loop := loop, conn := conn }
  | runTask {s revent read write func functor loop conn out} : s.loop.phase = .executing (func :: functor) →
      s.loop.Moves .loop [.executed func] loop → s.calls s.loop.threadId = none →
      s.conn.runTask write func.task = ⟨out, .ok conn⟩ →
      Moves s (.loop revent read write) (.loop (.executed func) :: out.map .conn)
        { s with loop := loop, conn := conn }
  | send {s tid data} : s.CanCall tid → s.conn.state = .eConnected →
      Moves s (.send tid data) [.send tid data] (s.setCall tid (some (.runInLoop (.sendInReactor data))))
  /-- `send` refuses the data, or the call is another one. -/
  | call {s a tid call} : s.CanCall tid → (∀ c ∈ call, c.data? = none) →
      (∀ tid data, a = .send tid data → s.conn.state ≠ .eConnected) → Moves s a [] (s.setCall tid call)
  | disconnect {s tid write} : s.calls tid = some .forceClose →
      Moves s (.proceed tid write) []
        ({ s with conn.state := .eDisconnected }.setCall tid (some (.runInLoop .handleClose)))
  | execute {s tid write task conn out} : s.calls tid = some (.runInLoop task) →
      s.loop.isInLoopThread tid → s.conn.runTask write task = ⟨out, .ok conn⟩ →
      Moves s (.proceed tid write) (.loop (.called ⟨tid, task⟩) :: out.map .conn)
        ({ s with conn := conn }.setCall tid none)
  | post {s tid write task loop} : s.calls tid = some (.runInLoop task) → ¬s.loop.isInLoopThread tid →
      s.loop.Moves (.queueInLoop tid ⟨tid, task⟩) [.pushed ⟨tid, task⟩] loop →
      Moves s (.proceed tid write) [.loop (.pushed ⟨tid, task⟩)] ({ s with loop := loop }.setCall tid none)
  /-- The rest of `queueInLoop`. -/
  | wake {s tid write loop} : s.calls tid = none → s.loop.Moves (.proceed tid) [] loop →
      Moves s (.proceed tid write) [] { s with loop := loop }

/-- The invariant of a connection and its loop. -/
structure Sound (s : SharedConn) : Prop where
  awake : s.loop.Awake
  canCall : ∀ tid, s.calls tid ≠ none → s.loop.CanCall tid
  /-- What waits has been posted by other threads. -/
  others : ∀ func ∈ s.loop.waiting, func.tid ≠ s.loop.threadId

variable {s s' : SharedConn}

/-- What is done with the connection alone. -/
theorem useConn_eq_ok {x : Conn Connection} {f : Connection → SharedConn} {out : List SharedEvent}
    (heq : (do pure (f (← Traced.mapOut .conn x))) = (⟨out, .ok s'⟩ : Shared SharedConn)) :
    ∃ out' conn, x = ⟨out', .ok conn⟩ ∧ out = out'.map .conn ∧ s' = f conn := by
  rcases Traced.bind_eq_ok_iff.mp heq with ⟨conn, out₁, out₂, hconn, hpure, rfl⟩
  rcases Traced.mapOut_eq_ok hconn with ⟨out', rfl, rfl⟩
  rcases Traced.mk.inj hpure with ⟨rfl, hs'⟩
  exact ⟨out', conn, rfl, List.append_nil _, (Except.ok.inj hs').symm⟩

theorem loop_moves (h : s.Sound) {revent : BitVec 32} {read : ReadAnswer} {write : WriteAnswer}
    {out : List SharedEvent} (ha : s.Allowed (.loop revent read write))
    (heq : s.loopStep revent read write = ⟨out, .ok s'⟩) :
    s.Moves (.loop revent read write) out s' := by
  rcases ha with ⟨hloop, hcall⟩
  rcases Reactor.loop_moves h.awake hloop with ⟨outL, loop, heqL, hmoves⟩
  rw [loopStep, heqL] at heq
  rcases Traced.bind_eq_ok_iff.mp heq with ⟨loop', out₁, out₂, hfirst, hrest, rfl⟩
  rcases Traced.mk.inj hfirst with ⟨rfl, hloop'⟩
  rcases Except.ok.inj hloop'
  rcases hmoves.loop_out with ⟨func, functor, hphase, rfl⟩ | ⟨hphase, rfl⟩
  · rw [hphase] at hrest
    rcases useConn_eq_ok hrest with ⟨out', conn, hconn, rfl, rfl⟩
    exact .runTask hphase hmoves hcall hconn
  · have hturn : ∀ {out'}, (pure { s with loop := loop } : Shared SharedConn) = ⟨out', .ok s'⟩ →
        s.Moves (.loop revent read write) out' s' := by
      intro out' hpure
      rcases Traced.mk.inj hpure with ⟨rfl, hs'⟩
      rcases Except.ok.inj hs'
      exact .turn hmoves hcall
    cases hph : s.loop.phase with
    | dispatching activeList =>
        rw [hph] at hrest
        match activeList with
        | [] | .taskHandler :: _ => exact hturn hrest
        | .socket fd :: rest =>
            dsimp only at hrest
            by_cases hfd : fd = s.fd
            · rw [if_pos hfd] at hrest
              by_cases hevent : s.conn.event ≠ none
              · rw [Traced.require_true hevent, pure_bind] at hrest
                rcases useConn_eq_ok hrest with ⟨out', conn, hconn, rfl, rfl⟩
                exact .handEvent hmoves hcall hconn
              · rw [Traced.require_false hevent, Traced.fail_bind] at hrest
                cases hrest
            · rw [if_neg hfd] at hrest
              exact hturn hrest
    | executing functor =>
        cases functor with
        | nil =>
            rw [hph] at hrest
            exact hturn hrest
        | cons func functor => exact absurd hph (hphase func functor)
    | _ =>
        rw [hph] at hrest
        exact hturn hrest

theorem proceed_moves (h : s.Sound) {tid : Nat} {write : WriteAnswer} {out : List SharedEvent}
    (ha : s.Allowed (.proceed tid write)) (heq : s.proceed tid write = ⟨out, .ok s'⟩) :
    s.Moves (.proceed tid write) out s' := by
  rw [proceed.eq_def] at heq
  cases hcall : s.calls tid with
  | none =>
      rw [hcall] at heq
      rcases Traced.bind_eq_ok_iff.mp heq with ⟨loop, out₁, out₂, hloop, hpure, rfl⟩
      rcases Traced.mapOut_eq_ok hloop with ⟨outL, heqL, rfl⟩
      rcases Traced.mk.inj hpure with ⟨rfl, hs'⟩
      rcases Except.ok.inj hs'
      have hmoves := Reactor.moves_of_eq (a := .proceed tid) h.awake
        (ha.resolve_left (not_not_intro hcall)) heqL
      rcases hmoves.proceed_out
      exact .wake hcall hmoves
  | some call =>
      rw [hcall] at heq
      cases call with
      | forceClose =>
          rcases Traced.mk.inj heq with ⟨rfl, hs'⟩
          rcases Except.ok.inj hs'
          exact .disconnect hcall
      | runInLoop task =>
          rcases Traced.bind_eq_ok_iff.mp heq with ⟨loop, out₁, out₂, hloop, hrest, rfl⟩
          rcases Traced.mapOut_eq_ok hloop with ⟨outL, heqL, rfl⟩
          have hcan := h.canCall tid (by rw [hcall]; exact Option.some_ne_none _)
          by_cases hthread : s.loop.isInLoopThread tid
          · rw [if_pos hthread] at hrest
            rw [Reactor.runInLoop, if_pos hthread] at heqL
            rcases Traced.mk.inj heqL with ⟨rfl, hsame⟩
            rcases Except.ok.inj hsame
            rcases useConn_eq_ok hrest with ⟨out', conn, hconn, rfl, rfl⟩
            exact .execute hcall hthread hconn
          · rw [if_neg hthread] at hrest
            rw [Reactor.runInLoop, if_neg hthread] at heqL
            rcases Traced.mk.inj hrest with ⟨rfl, hs'⟩
            rcases Except.ok.inj hs'
            have hmoves := Reactor.moves_of_eq (a := .queueInLoop tid ⟨tid, task⟩) h.awake hcan heqL
            rcases Traced.mk.inj heqL with ⟨rfl, -⟩
            exact .post hcall hthread hmoves

theorem moves_of_eq (h : s.Sound) {a : SharedStep} (ha : s.Allowed a) {out : List SharedEvent}
    (heq : s.step a = ⟨out, .ok s'⟩) : s.Moves a out s' := by
  cases a with
  | poll activeList =>
      rcases Traced.bind_eq_ok_iff.mp heq with ⟨loop, out₁, out₂, hloop, hpure, rfl⟩
      rcases Traced.mapOut_eq_ok hloop with ⟨outL, heqL, rfl⟩
      rcases Traced.mk.inj hpure with ⟨rfl, hs'⟩
      rcases Except.ok.inj hs'
      have hmoves := Reactor.moves_of_eq h.awake ha.1 heqL
      rcases Traced.mk.inj heqL with ⟨rfl, -⟩
      exact .poll hmoves
  | loop revent read write => exact loop_moves h ha heq
  | send tid data =>
      change s.send tid data = _ at heq
      by_cases hstate : s.conn.state = .eConnected
      · rw [send, Connection.send, if_pos hstate] at heq
        rcases Traced.mk.inj heq with ⟨rfl, hs'⟩
        rcases Except.ok.inj hs'
        exact .send ha hstate
      · rw [send, Connection.send, if_neg hstate] at heq
        rcases Traced.mk.inj heq with ⟨rfl, hs'⟩
        rcases Except.ok.inj hs'
        exact .call ha nofun fun _ _ _ => hstate
  | forceClose tid =>
      rcases Traced.mk.inj heq with ⟨rfl, hs'⟩
      rcases Except.ok.inj hs'
      refine .call ha ?_ nofun
      intro c hc
      rw [Connection.forceClose] at hc
      split at hc <;> cases hc
      rfl
  | shutdown tid =>
      rcases Traced.mk.inj heq with ⟨rfl, hs'⟩
      rcases Except.ok.inj hs'
      refine .call ha ?_ nofun
      intro c hc
      rw [Connection.shutdown] at hc
      split at hc <;> cases hc
      rfl
  | proceed tid write => exact proceed_moves h ha heq

/-- What waits in the loop after a step of the loop or its callers. -/
theorem waiting_eq {a : ReactorStep PostedTask} {loop : Reactor PostedTask}
    (h : s.loop.Moves a [] loop) : loop.waiting = s.loop.waiting := by
  have hwaiting := Reactor.waiting_moves h
  simpa using hwaiting.symm

/-- A thread that is in a call stays able to call the reactor. -/
theorem Sound.canCall_of_moves (h : s.Sound) {a : ReactorStep PostedTask}
    {out : List (ReactorEvent PostedTask)} {loop : Reactor PostedTask} (hmoves : s.loop.Moves a out loop)
    (hother : ∀ tid, s.calls tid ≠ none → s.loop.Spares tid a) :
    ∀ tid, s.calls tid ≠ none → loop.CanCall tid :=
  fun tid hcall => (h.canCall tid hcall).moves hmoves (hother tid hcall)

/-- The calls after one of them has gone on, or has come to its end. -/
theorem canCall_setCall {tid : Nat} {call : Option ConnCall} {loop : Reactor PostedTask}
    (hother : ∀ tid', tid' ≠ tid → s.calls tid' ≠ none → loop.CanCall tid')
    (htid : call ≠ none → loop.CanCall tid) :
    ∀ tid', (s.setCall tid call).calls tid' ≠ none → loop.CanCall tid' := by
  intro tid' hcall
  by_cases hsame : tid' = tid
  · subst hsame
    rw [calls_setCall_self] at hcall
    exact htid hcall
  · rw [calls_setCall_of_ne s hsame] at hcall
    exact hother tid' hsame hcall

/-- Every step keeps the invariant. -/
theorem Sound.moves (h : s.Sound) {a : SharedStep} {out : List SharedEvent} (hmoves : s.Moves a out s') :
    s'.Sound := by
  have hloop : ∀ {loop : Reactor PostedTask} {conn : Connection}, s.loop.Moves .loop [] loop →
      s.calls s.loop.threadId = none → Sound { s with loop := loop, conn := conn } := by
    intro loop conn hmoves hcall
    refine ⟨h.awake.moves hmoves, h.canCall_of_moves hmoves ?_, ?_⟩
    · rintro tid hne rfl
      exact hne hcall
    · rw [waiting_eq hmoves, hmoves.threadId_eq]
      exact h.others
  cases hmoves with
  | poll hpoll =>
      refine ⟨h.awake.moves hpoll, h.canCall_of_moves hpoll fun _ _ => trivial, ?_⟩
      rw [waiting_eq hpoll, hpoll.threadId_eq]
      exact h.others
  | turn hturn hcall => exact hloop hturn hcall
  | handEvent hturn hcall => exact hloop hturn hcall
  | @runTask _ _ write func functor loop conn _ hphase hturn hcall =>
      have hwaiting : s.loop.waiting ++ [] = func :: loop.waiting := Reactor.waiting_moves hturn
      refine ⟨h.awake.moves hturn, h.canCall_of_moves hturn ?_, ?_⟩
      · rintro tid hne rfl
        exact hne hcall
      · rw [hturn.threadId_eq]
        intro p hp
        apply h.others p
        rw [← List.append_nil s.loop.waiting, hwaiting]
        exact List.mem_cons_of_mem _ hp
  | send hcan =>
      exact ⟨h.awake, canCall_setCall (fun tid _ => h.canCall tid) fun _ => hcan.2, h.others⟩
  | call hcan =>
      exact ⟨h.awake, canCall_setCall (fun tid _ => h.canCall tid) fun _ => hcan.2, h.others⟩
  | @disconnect tid _ hcall =>
      have hcan := h.canCall tid (by rw [hcall]; exact Option.some_ne_none _)
      exact ⟨h.awake, canCall_setCall (fun tid _ => h.canCall tid) fun _ => hcan, h.others⟩
  | execute => 
      exact ⟨h.awake, canCall_setCall (fun tid _ => h.canCall tid) fun hne => absurd rfl hne, h.others⟩
  | @post tid _ task loop hcall hthread hpush =>
      refine ⟨h.awake.moves hpush, canCall_setCall ?_ fun hne => absurd rfl hne, ?_⟩
      · intro tid' hne hcall'
        exact (h.canCall tid' hcall').moves hpush hne
      · have hwaiting : s.loop.waiting ++ [⟨tid, task⟩] = loop.waiting := Reactor.waiting_moves hpush
        rw [loop_setCall, hpush.threadId_eq, ← hwaiting]
        intro p hp
        rcases List.mem_append.mp hp with hp | hp
        · exact h.others p hp
        · rcases List.mem_singleton.mp hp
          exact fun heq => hthread heq.symm
  | @wake tid _ loop hcall hwake =>
      refine ⟨h.awake.moves hwake, h.canCall_of_moves hwake ?_, ?_⟩
      · rintro tid' hne rfl
        exact hne hcall
      · rw [waiting_eq hwake, hwake.threadId_eq]
        exact h.others

theorem sound_start (threadId fd : Nat) (conn : Connection) : (start threadId fd conn).Sound :=
  ⟨Reactor.awake_new threadId, fun _ hne => absurd rfl hne, nofun⟩

theorem moves_of_result (h : s.Sound) {a : SharedStep} (ha : s.Allowed a)
    (hok : (s.step a).result = .ok s') : s.Moves a (s.step a).out s' :=
  moves_of_eq h ha (by rw [← hok])

theorem sound_invariant : sharedMachine.Invariant Sound :=
  fun _ _ _ h ha hok => h.moves (moves_of_result h ha hok)

/-! ### The order of the blocks -/

/-- The blocks of a thread that are still on their way. -/
def pendingBy (s : SharedConn) (tid : Nat) : List (List UInt8) :=
  sentBy tid (s.loop.waiting.filterMap PostedTask.block?) ++ ((s.calls tid).bind ConnCall.data?).toList

theorem pendingBy_setCall_of_ne (s : SharedConn) {tid tid' : Nat} (h : tid ≠ tid') (call : Option ConnCall) :
    (s.setCall tid' call).pendingBy tid = s.pendingBy tid := by
  rw [pendingBy, calls_setCall_of_ne s h]
  rfl

theorem pendingBy_setCall_self (s : SharedConn) (tid : Nat) (call : Option ConnCall) :
    (s.setCall tid call).pendingBy tid =
      sentBy tid (s.loop.waiting.filterMap PostedTask.block?) ++ (call.bind ConnCall.data?).toList := by
  rw [pendingBy, calls_setCall_self]
  rfl

theorem sentBy_block_self (tid : Nat) (task : ConnTask) :
    sentBy tid (PostedTask.block? ⟨tid, task⟩).toList = task.data?.toList := by
  rw [PostedTask.block?]
  cases task.data? <;> simp [sentBy]

theorem sentBy_block_of_ne {tid : Nat} {func : PostedTask} (h : func.tid ≠ tid) :
    sentBy tid func.block?.toList = [] := by
  rw [PostedTask.block?]
  cases func.task.data? <;> simp [sentBy, h]

theorem pendingBy_of_waiting_eq {loop : Reactor PostedTask} (conn : Connection)
    (h : loop.waiting = s.loop.waiting) (tid : Nat) :
    ({ s with loop := loop, conn := conn } : SharedConn).pendingBy tid = s.pendingBy tid := by
  rw [pendingBy, pendingBy, h]

theorem sentBy_block_cons (tid : Nat) (func : PostedTask) (l : List PostedTask) :
    sentBy tid ((func :: l).filterMap PostedTask.block?) =
      sentBy tid func.block?.toList ++ sentBy tid (l.filterMap PostedTask.block?) := by
  rw [← sentBy_append, List.filterMap_cons]
  cases func.block? <;> rfl

/-- A block enters when `send` finds the connection connected, and leaves when `sendInReactor` is
called. -/
theorem pendingBy_moves (h : s.Sound) (tid : Nat) {a : SharedStep} {out : List SharedEvent}
    (hmoves : s.Moves a out s') :
    s.pendingBy tid ++ sentBy tid (sentBlocks out) = sentBy tid (ranBlocks out) ++ s'.pendingBy tid := by
  cases hmoves with
  | poll hloop | turn hloop | wake _ hloop =>
      rw [pendingBy_of_waiting_eq _ (waiting_eq hloop)]
      exact List.append_nil _
  | handEvent hloop =>
      rw [pendingBy_of_waiting_eq _ (waiting_eq hloop), sentBlocks_conn, ranBlocks_conn]
      exact List.append_nil _
  | @runTask _ _ write func functor loop conn out hphase hloop =>
      have hwaiting : s.loop.waiting ++ [] = func :: loop.waiting := Reactor.waiting_moves hloop
      rw [List.append_nil] at hwaiting
      rw [ranBlocks_task func rfl, sentBlocks_task, pendingBy, hwaiting, sentBy_block_cons, pendingBy]
      simp [sentBy, List.append_assoc]
  | @send tid' data hcan =>
      by_cases hsame : tid = tid'
      · subst hsame
        rw [pendingBy_setCall_self, pendingBy, hcan.1]
        simp [sentBlocks, ranBlocks, sentBy, ConnCall.data?, ConnTask.data?]
      · rw [pendingBy_setCall_of_ne s hsame]
        simp [sentBlocks, ranBlocks, sentBy, Ne.symm hsame]
  | @call _ tid' call hcan hnone =>
      by_cases hsame : tid = tid'
      · subst hsame
        have hdata : call.bind ConnCall.data? = none := by
          cases call with
          | none => rfl
          | some c => exact hnone c rfl
        rw [pendingBy_setCall_self, pendingBy, hcan.1, hdata]
        exact List.append_nil _
      · rw [pendingBy_setCall_of_ne s hsame]
        exact List.append_nil _
  | @disconnect tid' _ hcall =>
      by_cases hsame : tid = tid'
      · subst hsame
        rw [pendingBy_setCall_self, pendingBy, hcall]
        exact List.append_nil _
      · rw [pendingBy_setCall_of_ne _ hsame]
        exact List.append_nil _
  | @execute tid' write task conn out hcall hthread =>
      rw [ranBlocks_task ⟨tid', task⟩ rfl, sentBlocks_task]
      by_cases hsame : tid = tid'
      · subst hsame
        -- nothing of the loop thread waits in its own queue
        have hnone : sentBy tid (s.loop.waiting.filterMap PostedTask.block?) = [] := by
          rw [sentBy, List.map_eq_nil_iff, List.filter_eq_nil_iff]
          intro block hblock
          rcases List.mem_filterMap.mp hblock with ⟨func, hfunc, hdata⟩
          rcases Option.map_eq_some_iff.mp hdata with ⟨data, -, rfl⟩
          have hother := h.others func hfunc
          change s.loop.threadId = tid at hthread
          simpa [hthread] using hother
        rw [pendingBy_setCall_self, pendingBy, hcall, sentBy_block_self, hnone]
        simp [sentBy, ConnCall.data?]
      · rw [pendingBy_setCall_of_ne _ hsame, sentBy_block_of_ne (Ne.symm hsame)]
        exact List.append_nil _
  | @post tid' write task loop hcall hthread hloop =>
      have hwaiting : s.loop.waiting ++ [⟨tid', task⟩] = loop.waiting := Reactor.waiting_moves hloop
      have hblocks : sentBy tid (loop.waiting.filterMap PostedTask.block?) =
          sentBy tid (s.loop.waiting.filterMap PostedTask.block?) ++
            sentBy tid (PostedTask.block? ⟨tid', task⟩).toList := by
        rw [← hwaiting, List.filterMap_append, sentBy_append, sentBy_block_cons]
        simp [sentBy]
      have hsent : sentBy tid (sentBlocks [.loop (.pushed ⟨tid', task⟩)]) = [] := rfl
      have hran : sentBy tid (ranBlocks [.loop (.pushed ⟨tid', task⟩)]) = [] := rfl
      rw [hsent, hran, List.append_nil, List.nil_append]
      by_cases hsame : tid = tid'
      · subst hsame
        rw [pendingBy_setCall_self, hblocks, pendingBy, hcall, sentBy_block_self]
        exact (List.append_nil _).symm
      · rw [pendingBy_setCall_of_ne _ hsame, pendingBy, pendingBy, hblocks,
          sentBy_block_of_ne (Ne.symm hsame), List.append_nil]

/-! ### The bytes of the blocks -/

/-- The task that a step executes, with the answer to the `write` it makes. -/
def taskOf (s : SharedConn) : SharedStep → Option (ConnTask × WriteAnswer)
  | .loop _ _ write =>
    match s.loop.phase with
    | .executing (func :: _) => some (func.task, write)
    | _ => none
  | .proceed tid write =>
    match s.calls tid with
    | some (.runInLoop task) => if s.loop.isInLoopThread tid then some (task, write) else none
    | _ => none
  | _ => none

/-- A `sendInReactor` that the step executes finds the connection open and nothing in the buffer, and
the kernel takes some of the bytes. -/
def TakesBlock (s : SharedConn) (a : SharedStep) : Prop :=
  ∀ data write, s.taskOf a = some (.sendInReactor data, write) → s.conn.Takes write

theorem runTask_kept {c conn : Connection} {write : WriteAnswer} (func : PostedTask)
    {out : List ConnEvent} (heq : c.runTask write func.task = ⟨out, .ok conn⟩) :
    ∃ kept, kept.Sublist func.block?.toList ∧
      takenBytes out ++ conn.writeBuffer = c.writeBuffer ++ kept.flatMap Prod.snd ∧
      ((∀ data, func.task = .sendInReactor data → c.Takes write) → kept = func.block?.toList) := by
  rcases func with ⟨tid, task⟩
  have hresult := congrArg Traced.result heq
  have hbytes : ∀ {data}, c.Adds data (c.runTask write task) →
      takenBytes out ++ conn.writeBuffer = c.writeBuffer ++ data := by
    intro data hadds
    have hspec := (hadds conn hresult).1
    rwa [heq] at hspec
  cases task with
  | sendInReactor data =>
      by_cases htakes : c.Takes write
      · refine ⟨[(tid, data)], List.Sublist.refl _, ?_, fun _ => rfl⟩
        simpa using hbytes ((Connection.adds_sendInReactor write).1 htakes)
      · refine ⟨[], List.nil_sublist _, ?_, fun hall => absurd (hall data rfl) htakes⟩
        simpa using hbytes ((Connection.adds_sendInReactor write).2 htakes)
  | handleClose => exact ⟨[], List.nil_sublist _, hbytes Connection.adds_handleClose, fun _ => rfl⟩
  | shutdownInReactor =>
      exact ⟨[], List.nil_sublist _, hbytes Connection.adds_shutdownInReactor, fun _ => rfl⟩

theorem runTask_state {c conn : Connection} {write : WriteAnswer} {task : ConnTask}
    {out : List ConnEvent} (heq : c.runTask write task = ⟨out, .ok conn⟩)
    (hconn : conn.state = .eConnected) : c.state = .eConnected := by
  have hresult := congrArg Traced.result heq
  cases task with
  | sendInReactor data =>
      by_cases htakes : c.Takes write
      · exact ((Connection.adds_sendInReactor write).1 htakes conn hresult).2 hconn
      · exact ((Connection.adds_sendInReactor write).2 htakes conn hresult).2 hconn
  | handleClose => exact (Connection.adds_handleClose conn hresult).2 hconn
  | shutdownInReactor => exact (Connection.adds_shutdownInReactor conn hresult).2 hconn

/-- A connection that is not connected does not become so. -/
theorem Moves.state {a : SharedStep} {out : List SharedEvent} (hmoves : s.Moves a out s')
    (hconn : s'.conn.state = .eConnected) : s.conn.state = .eConnected := by
  cases hmoves with
  | handEvent _ _ heq =>
      exact (Connection.adds_handEvent _ _ _ _ (congrArg Traced.result heq)).2 hconn
  | runTask _ _ _ heq | execute _ _ heq => exact runTask_state heq hconn
  | disconnect => cases hconn
  | _ => exact hconn

/-- `send` is refused when the connection is not connected, and then for good. -/
theorem Moves.sentBlocks {a : SharedStep} {out : List SharedEvent} (hmoves : s.Moves a out s') :
    sentBlocks out = if s.conn.state = .eConnected then (a.call?).toList else [] := by
  cases hmoves with
  | send _ hstate =>
      rw [if_pos hstate]
      rfl
  | @call a tid call hcan hnone hrefused =>
      by_cases hstate : s.conn.state = .eConnected
      · rw [if_pos hstate]
        cases a with
        | send tid data => exact absurd hstate (hrefused tid data rfl)
        | _ => rfl
      · rw [if_neg hstate]
        rfl
  | handEvent | runTask | execute =>
      first | rw [sentBlocks_conn] | rw [sentBlocks_task]
      split <;> rfl
  | _ => split <;> rfl

/-- A block is added as a whole or not at all. -/
theorem bytes_moves {a : SharedStep} {out : List SharedEvent} (hmoves : s.Moves a out s') :
    ∃ kept, kept.Sublist (ranBlocks out) ∧
      outputOf out ++ s'.conn.writeBuffer = s.conn.writeBuffer ++ kept.flatMap Prod.snd ∧
      (s.TakesBlock a → kept = ranBlocks out) := by
  cases hmoves with
  | poll | turn | wake | call | disconnect | send | post =>
      exact ⟨[], List.nil_sublist _, (List.append_nil _).symm, fun _ => rfl⟩
  | @handEvent revent read write loop conn out _ _ heq =>
      refine ⟨[], List.nil_sublist _, ?_, fun _ => (ranBlocks_conn out).symm⟩
      have hadds := (Connection.adds_handEvent revent read write conn (congrArg Traced.result heq)).1
      rw [heq] at hadds
      rw [outputOf_conn]
      exact hadds
  | @runTask _ _ write func functor loop conn out hphase _ _ heq =>
      rcases runTask_kept func heq with ⟨kept, hsub, hbytes, hall⟩
      rw [ranBlocks_task func rfl, outputOf_task]
      refine ⟨kept, hsub, hbytes, fun htakes => hall fun data hdata => ?_⟩
      apply htakes data write
      rw [taskOf, hphase, ← hdata]
  | @execute tid write task conn out hcall hthread heq =>
      rcases runTask_kept ⟨tid, task⟩ heq with ⟨kept, hsub, hbytes, hall⟩
      rw [ranBlocks_task ⟨tid, task⟩ rfl, outputOf_task]
      refine ⟨kept, hsub, hbytes, fun htakes => hall fun data hdata => ?_⟩
      apply htakes data write
      rw [taskOf, hcall, ← hdata]
      exact if_pos hthread

end SharedConn

/-! ## Runs -/

namespace SharedConn

variable {s s' : SharedConn}

theorem bytes_run (h : s.Sound) {steps : List SharedStep} (hlegal : sharedMachine.Legal s steps)
    {out : List SharedEvent} (heq : sharedMachine.run s steps = ⟨out, .ok s'⟩) :
    ∃ kept, kept.Sublist (ranBlocks out) ∧
      outputOf out ++ s'.conn.writeBuffer = s.conn.writeBuffer ++ kept.flatMap Prod.snd ∧
      ((sharedMachine.restrict TakesBlock).Legal s steps → kept = ranBlocks out) := by
  induction steps generalizing s out with
  | nil =>
      rcases Traced.mk.inj heq with ⟨rfl, hs'⟩
      rcases Except.ok.inj hs'
      exact ⟨[], List.nil_sublist _, (List.append_nil _).symm, fun _ => rfl⟩
  | cons a steps ih =>
      rcases Traced.bind_eq_ok_iff.mp heq with ⟨s₁, out₁, out₂, hstep, hrest, rfl⟩
      have hok : (sharedMachine.step s a).result = .ok s₁ := congrArg Traced.result hstep
      rcases bytes_moves (moves_of_eq h hlegal.1 hstep) with ⟨kept₁, hsub₁, hbytes₁, hall₁⟩
      rcases ih (sound_invariant s a s₁ h hlegal.1 hok) (hlegal.2 s₁ hok) hrest with
        ⟨kept₂, hsub₂, hbytes₂, hall₂⟩
      refine ⟨kept₁ ++ kept₂, ?_, ?_, fun hall => ?_⟩
      · rw [ranBlocks_append]
        exact hsub₁.append hsub₂
      · rw [outputOf_append, List.append_assoc, hbytes₂, ← List.append_assoc, hbytes₁,
          List.flatMap_append, List.append_assoc]
      · rw [ranBlocks_append, hall₁ hall.1.2, hall₂ (hall.2 s₁ hok)]

/-- The calls of `send` find the connection connected up to one of them, and not from there on. -/
theorem sentBlocks_prefix_sendCalls (h : s.Sound) {steps : List SharedStep}
    (hlegal : sharedMachine.Legal s steps)
    {out : List SharedEvent} (heq : sharedMachine.run s steps = ⟨out, .ok s'⟩) :
    sentBlocks out <+: sendCalls steps ∧ (s.conn.state ≠ .eConnected → sentBlocks out = []) := by
  induction steps generalizing s out with
  | nil =>
      rcases Traced.mk.inj heq with ⟨rfl, -⟩
      exact ⟨List.nil_prefix, fun _ => rfl⟩
  | cons a steps ih =>
      rcases Traced.bind_eq_ok_iff.mp heq with ⟨s₁, out₁, out₂, hstep, hrest, rfl⟩
      have hok : (sharedMachine.step s a).result = .ok s₁ := congrArg Traced.result hstep
      have hmoves := moves_of_eq h hlegal.1 hstep
      rcases ih (sound_invariant s a s₁ h hlegal.1 hok) (hlegal.2 s₁ hok) hrest with ⟨hpre, hclosed⟩
      have hcalls : sendCalls (a :: steps) = a.call?.toList ++ sendCalls steps := by
        rw [sendCalls, List.filterMap_cons]
        cases a.call? <;> rfl
      rw [sentBlocks_append, hmoves.sentBlocks, hcalls]
      by_cases hstate : s.conn.state = .eConnected
      · rw [if_pos hstate]
        exact ⟨(List.prefix_append_right_inj _).mpr hpre, fun hne => absurd hstate hne⟩
      · rw [if_neg hstate, hclosed fun hconn => hstate (hmoves.state hconn)]
        exact ⟨List.nil_prefix, fun _ => rfl⟩

/-- The blocks of one thread keep their order. -/
theorem pendingBy_run (h : s.Sound) (tid : Nat) {steps : List SharedStep}
    (hlegal : sharedMachine.Legal s steps) (hrun : (sharedMachine.run s steps).result = .ok s') :
    s.pendingBy tid ++ sentBy tid (sentBlocks (sharedMachine.run s steps).out) =
      sentBy tid (ranBlocks (sharedMachine.run s steps).out) ++ s'.pendingBy tid := by
  have hstep : ∀ (s : SharedConn) a s', s.Sound → sharedMachine.Allowed s a →
      (sharedMachine.step s a).result = .ok s' →
      s.pendingBy tid ++ (sharedMachine.step s a).out.filterMap (fun e =>
        e.sent?.bind fun block => if block.1 = tid then some block.2 else none) =
      (sharedMachine.step s a).out.filterMap (fun e =>
        e.ran?.bind fun block => if block.1 = tid then some block.2 else none) ++ s'.pendingBy tid := by
    intro s a s' h ha hok
    rw [← sentBy_filterMap, ← sentBy_filterMap]
    exact pendingBy_moves h tid (moves_of_result h ha hok)
  rw [sentBlocks, ranBlocks, sentBy_filterMap, sentBy_filterMap]
  exact sound_invariant.fifo hstep h hlegal hrun

/-- What has been given to `sendInReactor` are the first blocks that the thread has sent. -/
theorem ranBlocks_prefix (h : s.Sound) (hnone : ∀ tid, s.pendingBy tid = []) {steps : List SharedStep}
    (hlegal : sharedMachine.Legal s steps) {out : List SharedEvent}
    (heq : sharedMachine.run s steps = ⟨out, .ok s'⟩) (tid : Nat) :
    sentBy tid (ranBlocks out) <+: sentBy tid (sendCalls steps) := by
  have hpending := pendingBy_run h tid hlegal (congrArg Traced.result heq)
  rw [heq, hnone, List.nil_append] at hpending
  have hran : sentBy tid (ranBlocks out) <+: sentBy tid (sentBlocks out) := ⟨_, hpending.symm⟩
  exact hran.trans (sentBy_prefix_sentBy tid (sentBlocks_prefix_sendCalls h hlegal heq).1)

end SharedConn

/-- In every run the kernel has taken, and the buffer holds, whole blocks that have been given to
`sendInReactor`, in the order of those calls and each once. The blocks of a thread are given to
`sendInReactor` in the order of its `send` calls, and none is left behind: what has not been given to it
yet waits in the loop or is about to be posted, and the loop does not go to sleep on it. The calls that
`send` refuses are the last ones. -/
theorem sharedSend (threadId fd : Nat) (conn : Connection) {steps : List SharedStep}
    (hlegal : sharedMachine.Legal (.start threadId fd conn) steps) {s : SharedConn}
    {out : List SharedEvent}
    (hrun : sharedMachine.run (.start threadId fd conn) steps = ⟨out, .ok s⟩) :
    (∃ kept : List (Nat × List UInt8), kept.Sublist (ranBlocks out) ∧
      outputOf out ++ s.conn.writeBuffer = conn.writeBuffer ++ kept.flatMap Prod.snd) ∧
    (∀ tid, sentBy tid (sentBlocks out) = sentBy tid (ranBlocks out) ++ s.pendingBy tid) ∧
    s.loop.WakesUp ∧ sentBlocks out <+: sendCalls steps := by
  have hsound := SharedConn.sound_start threadId fd conn
  have hok := congrArg Traced.result hrun
  refine ⟨?_, fun tid => ?_, (SharedConn.sound_invariant.run hsound hlegal hok).awake.wakesUp,
    (SharedConn.sentBlocks_prefix_sendCalls hsound hlegal hrun).1⟩
  · rcases SharedConn.bytes_run hsound hlegal hrun with ⟨kept, hsub, hbytes, -⟩
    exact ⟨kept, hsub, hbytes⟩
  · have hpending := SharedConn.pendingBy_run hsound tid hlegal hok
    rw [hrun] at hpending
    exact hpending

/-- An open connection whose handler watches for nothing. -/
def openConn : Connection := { Connection.new ⟨false, false, false, false⟩ with state := .eConnected }

theorem openConn_state : openConn.state ≠ .eDisconnected := by decide

/-- `sendInReactor` on an open connection, if the kernel takes all of the data. -/
theorem openConn_sendInReactor (data : List UInt8) :
    openConn.sendInReactor data (.count data.length) = ⟨[.send (.accepted data)], .ok openConn⟩ := by
  have hwrite : openConn.writeNow data (.count data.length) =
      ⟨[.send (.accepted data)], .ok (false, data.length, 0)⟩ := by
    rw [Connection.writeNow.eq_def, if_pos (show openConn.writeBuffer.isEmpty = true from rfl)]
    simp only [Nat.sub_self, List.take_length]
    rfl
  rw [Connection.sendInReactor, if_neg openConn_state, hwrite]
  rfl

/-- The loop calls such a task. -/
theorem SharedConn.loop_of_executing {s : SharedConn} (tid : Nat) (data : List UInt8)
    {functor : List PostedTask}
    (hphase : s.loop.phase = .executing (⟨tid, .sendInReactor data⟩ :: functor)) (hconn : s.conn = openConn)
    (revent : BitVec 32) (read : ReadAnswer) :
    (s.step (.loop revent read (.count data.length))).result =
      .ok { s with loop := { s.loop with phase := .inTask functor } } := by
  have hsend : s.conn.runTask (.count data.length) (.sendInReactor data) =
      ⟨[.send (.accepted data)], .ok s.conn⟩ := by
    rw [hconn]
    exact openConn_sendInReactor data
  rw [step, loopStep, Reactor.loop.eq_def, hphase]
  dsimp only
  rw [hsend]
  rfl

theorem SharedConn.takesBlock_loop {s : SharedConn} (hconn : s.conn = openConn) (revent : BitVec 32)
    (read : ReadAnswer) (n : Nat) : s.TakesBlock (.loop revent read (.count n)) := by
  intro data write htask
  rw [taskOf] at htask
  split at htask
  · rcases Prod.mk.inj (Option.some.inj htask) with ⟨-, rfl⟩
    rw [hconn]
    exact ⟨openConn_state, rfl, n, rfl⟩
  · cases htask

/-- Two threads send three blocks, the last one while the loop is about to execute the tasks. The kernel
takes the first two, and `n` bytes of the third. -/
def threeBlocks (a b c : List UInt8) (n : Nat) : List SharedStep :=
  [.send 1 a, .proceed 1 (.count 0), .send 2 b, .proceed 1 (.count 0), .proceed 2 (.count 0),
    .proceed 1 (.count 0), .poll [.taskHandler], .loop 0 .eof (.count 0), .loop 0 .eof (.count 0),
    .loop 0 .eof (.count 0), .loop 0 .eof (.count 0), .send 1 c, .proceed 1 (.count 0),
    .loop 0 .eof (.count 0), .loop 0 .eof (.count a.length), .loop 0 .eof (.count 0),
    .proceed 2 (.count 0), .loop 0 .eof (.count b.length), .loop 0 .eof (.count 0),
    .loop 0 .eof (.count n)]

theorem legal_threeBlocks (a b c : List UInt8) (n : Nat) :
    (sharedMachine.restrict SharedConn.TakesBlock).Legal (.start 0 7 openConn) (threeBlocks a b c n) := by
  refine Machine.legal_cons ⟨⟨rfl, rfl, nofun⟩, nofun⟩ rfl ?_
  refine Machine.legal_cons ⟨.inl nofun, nofun⟩ rfl ?_
  refine Machine.legal_cons ⟨⟨rfl, rfl, nofun⟩, nofun⟩ rfl ?_
  refine Machine.legal_cons ⟨.inr nofun, nofun⟩ rfl ?_
  refine Machine.legal_cons ⟨.inl nofun, nofun⟩ rfl ?_
  refine Machine.legal_cons ⟨.inr nofun, nofun⟩ rfl ?_
  refine Machine.legal_cons ⟨⟨⟨rfl, by decide, fun _ => Nat.succ_pos 0⟩, nofun⟩, nofun⟩ rfl ?_
  iterate 4 refine Machine.legal_cons ⟨⟨⟨nofun, rfl⟩, rfl⟩, nofun⟩ rfl ?_
  refine Machine.legal_cons ⟨⟨rfl, rfl, nofun⟩, nofun⟩ rfl ?_
  refine Machine.legal_cons ⟨.inl nofun, nofun⟩ rfl ?_
  refine Machine.legal_cons ⟨⟨⟨nofun, rfl⟩, rfl⟩, nofun⟩ rfl ?_
  refine Machine.legal_cons ⟨⟨⟨nofun, rfl⟩, rfl⟩, SharedConn.takesBlock_loop rfl _ _ _⟩
    (SharedConn.loop_of_executing 1 a rfl rfl 0 .eof) ?_
  refine Machine.legal_cons ⟨⟨⟨nofun, rfl⟩, rfl⟩, nofun⟩ rfl ?_
  refine Machine.legal_cons ⟨.inr nofun, nofun⟩ rfl ?_
  refine Machine.legal_cons ⟨⟨⟨nofun, rfl⟩, rfl⟩, SharedConn.takesBlock_loop rfl _ _ _⟩
    (SharedConn.loop_of_executing 2 b rfl rfl 0 .eof) ?_
  refine Machine.legal_cons ⟨⟨⟨nofun, rfl⟩, rfl⟩, nofun⟩ rfl ?_
  exact ⟨⟨⟨⟨nofun, rfl⟩, rfl⟩, SharedConn.takesBlock_loop rfl _ _ _⟩, fun _ _ => trivial⟩

theorem sharedSend_threeBlocks :
    ∃ out s, sharedMachine.run (.start 0 7 openConn) (threeBlocks [104, 105] [33] [97, 98] 1) = ⟨out, .ok s⟩ ∧
      (∃ kept : List (Nat × List UInt8), kept.Sublist (ranBlocks out) ∧
        outputOf out ++ s.conn.writeBuffer = [] ++ kept.flatMap Prod.snd) ∧
      (∀ tid, sentBy tid (sentBlocks out) = sentBy tid (ranBlocks out) ++ s.pendingBy tid) ∧
      s.loop.WakesUp ∧ sentBlocks out <+: sendCalls (threeBlocks [104, 105] [33] [97, 98] 1) :=
  ⟨_, _, rfl, sharedSend 0 7 openConn (Machine.legal_of_restrict (legal_threeBlocks _ _ _ _)) rfl⟩

/-- If every `sendInReactor` finds the connection open and the buffer empty, and the kernel refuses
nothing, then no block is missing. -/
theorem sharedSend_whole (threadId fd : Nat) (conn : Connection) {steps : List SharedStep}
    (hlegal : (sharedMachine.restrict SharedConn.TakesBlock).Legal (.start threadId fd conn) steps)
    {s : SharedConn} {out : List SharedEvent}
    (hrun : sharedMachine.run (.start threadId fd conn) steps = ⟨out, .ok s⟩) :
    outputOf out ++ s.conn.writeBuffer = conn.writeBuffer ++ (ranBlocks out).flatMap Prod.snd := by
  have hsound := SharedConn.sound_start threadId fd conn
  rcases SharedConn.bytes_run hsound (Machine.legal_of_restrict hlegal) hrun with ⟨kept, -, hbytes, hall⟩
  rwa [hall hlegal] at hbytes

theorem sharedSend_whole_threeBlocks :
    ∃ out s, sharedMachine.run (.start 0 7 openConn) (threeBlocks [104, 105] [33] [97, 98] 1) = ⟨out, .ok s⟩ ∧
      outputOf out ++ s.conn.writeBuffer = [] ++ (ranBlocks out).flatMap Prod.snd :=
  ⟨_, _, rfl, sharedSend_whole 0 7 openConn (legal_threeBlocks _ _ _ _) rfl⟩

end WebsocketCpp
