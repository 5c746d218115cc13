import WebsocketCpp.Base.Proofs.ReactorTasks
import WebsocketCpp.Misc.Progress
import WebsocketCpp.Misc.RoundRobin
import WebsocketCpp.Net.ServerLoops

/-!
# Connections are dealt to the loops

`connectionsDealt`: in whatever order the loops and the threads go on, the connections that a loop has
established, followed by those bound for it, are those dealt to it in turn, in the order in which they
have been accepted. No loop has more than one connection ahead of another, and none sleeps on a bound
one.
-/

namespace WebsocketCpp

def LoopTask.conn? : LoopTask → Option Nat
  | .connEstablished conn => some conn
  | .other _ => none

namespace ReactorEvent

/-- The connection that is established, from `functorList_` or at once. -/
def established? : ReactorEvent LoopTask → Option Nat
  | .executed func | .called func => func.conn?
  | .pushed _ => none

end ReactorEvent

namespace ServerLoopEvent

def accepted? : ServerLoopEvent → Option Nat
  | .accepted conn => some conn
  | .loop _ _ => none

/-- The connection that the loop at `p` establishes. -/
def establishedBy? (p : Nat) : ServerLoopEvent → Option Nat
  | .accepted _ => none
  | .loop q e => if q = p then e.established? else none

end ServerLoopEvent

def acceptedOf (events : List ServerLoopEvent) : List Nat := events.filterMap ServerLoopEvent.accepted?

def establishedBy (p : Nat) (events : List ServerLoopEvent) : List Nat :=
  events.filterMap (ServerLoopEvent.establishedBy? p)

theorem acceptedOf_append (xs ys : List ServerLoopEvent) :
    acceptedOf (xs ++ ys) = acceptedOf xs ++ acceptedOf ys := List.filterMap_append

theorem establishedBy_append (p : Nat) (xs ys : List ServerLoopEvent) :
    establishedBy p (xs ++ ys) = establishedBy p xs ++ establishedBy p ys := List.filterMap_append

@[simp] theorem acceptedOf_loop (q : Nat) (out : List (ReactorEvent LoopTask)) :
    acceptedOf (out.map (.loop q)) = [] := by
  simp [acceptedOf, ServerLoopEvent.accepted?, List.filterMap_map, Function.comp_def]

theorem establishedBy_loop (p q : Nat) (out : List (ReactorEvent LoopTask)) :
    establishedBy p (out.map (.loop q)) = if q = p then out.filterMap ReactorEvent.established? else [] := by
  by_cases hq : q = p <;>
    simp [establishedBy, ServerLoopEvent.establishedBy?, List.filterMap_map, Function.comp_def, hq]

namespace Reactor

variable {r r' : Reactor LoopTask} {a : ReactorStep LoopTask} {out : List (ReactorEvent LoopTask)}

/-- The connections that are bound for the loop. -/
def bound (r : Reactor LoopTask) : List Nat := r.waiting.filterMap LoopTask.conn?

/-- A step that binds no connection establishes those that `runningTask` comes to. -/
theorem established_moves (hmoves : r.Moves a out r') (ha : ServerLoops.BindsOther a) :
    out.filterMap ReactorEvent.established? =
      (out.filterMap ReactorEvent.executed?).filterMap LoopTask.conn? := by
  cases hmoves with
  | call =>
      rcases ha with ⟨f, rfl⟩
      rfl
  | _ => rfl

theorem pushed_moves (hmoves : r.Moves a out r') (ha : ServerLoops.BindsOther a) :
    (out.filterMap ReactorEvent.pushed?).filterMap LoopTask.conn? = [] := by
  cases hmoves with
  | push hpush => rcases hpush with rfl | rfl <;> rcases ha with ⟨f, rfl⟩ <;> rfl
  | _ => rfl

theorem bound_moves (hmoves : r.Moves a out r') (ha : ServerLoops.BindsOther a) :
    r.bound = out.filterMap ReactorEvent.established? ++ r'.bound := by
  have hwaiting := congrArg (List.filterMap LoopTask.conn?) (waiting_moves hmoves)
  rwa [List.filterMap_append, List.filterMap_append, pushed_moves hmoves ha, List.append_nil,
    ← established_moves hmoves ha] at hwaiting

end Reactor

namespace ReactorThreadPool

/-- `k` connections have been accepted. -/
def AtTurn (pool : ReactorThreadPool) (k : Nat) : Prop :=
  pool.loops ≠ [] → pool.index = k % pool.loops.length

/-- `nextLoop` goes round. -/
theorem AtTurn.nextLoop {pool : ReactorThreadPool} {k : Nat} (h : pool.AtTurn k) :
    ∃ p pool', pool.nextLoop = .ok (p, pool') ∧ pool.ioLoops[k % pool.ioLoops.length]? = some p ∧
      pool'.baseLoop = pool.baseLoop ∧ pool'.ioLoops = pool.ioLoops ∧ pool'.AtTurn (k + 1) := by
  by_cases hnil : pool.loops = []
  · refine ⟨pool.baseLoop, pool, ?_, ?_, rfl, rfl, fun hne => absurd hnil hne⟩
    · rw [ReactorThreadPool.nextLoop, if_pos hnil]
    · simp [ioLoops, hnil, Nat.mod_one]
  · have hpos : 0 < pool.loops.length := List.length_pos_of_ne_nil hnil
    have hlt : pool.index < pool.loops.length := h hnil ▸ Nat.mod_lt k hpos
    let index := if pool.loops.length ≤ pool.index + 1 then 0 else pool.index + 1
    refine ⟨pool.loops[pool.index], { pool with index := index }, ?_, ?_, rfl, rfl, ?_⟩
    · rw [ReactorThreadPool.nextLoop, if_neg hnil, List.getElem?_eq_getElem hlt]
    · simp only [ioLoops, if_neg hnil, ← h hnil]
      exact List.getElem?_eq_getElem hlt
    · intro _
      rw [succ_mod_eq hpos, ← h hnil]

end ReactorThreadPool

namespace ServerLoops

/-- The ways in which a step fails: `getsockname` fails, or a thread writes to a full eventfd. -/
inductive Fails (s : ServerLoops) : ServerLoopStep → Prop where
  | unnamed {conn} : Fails s (.newConnAccept conn false)
  | overflow {p a} : (s.reactors p).Overflows a → Fails s (.reactor p a)

/-- What holds when `past` has happened: the next loop is the one whose turn it is, and what a loop has
established and is to establish is what has been dealt to it. A loop of the thread that accepts is never
bound anything. -/
structure Deals (threadOf : Nat → Nat) (baseLoop : Nat) (loops : List Nat) (past : List ServerLoopEvent)
    (s : ServerLoops) : Prop where
  baseLoop_eq : s.threadPool.baseLoop = baseLoop
  ioLoops_eq : s.threadPool.ioLoops = loops
  turn : s.threadPool.AtTurn (acceptedOf past).length
  threadId_eq : ∀ p, (s.reactors p).threadId = threadOf p
  awake : ∀ p, (s.reactors p).Awake
  dealt : ∀ p, establishedBy p past ++ (s.reactors p).bound = dealtTo loops p (acceptedOf past)
  atOnce : ∀ p, threadOf p = threadOf baseLoop → (s.reactors p).bound = []

variable {threadOf : Nat → Nat} {baseLoop : Nat} {loops : List Nat} {past : List ServerLoopEvent}
variable {s s' : ServerLoops}

/-- A step of a reactor, seen from the server. -/
theorem onReactor_eq {p : Nat} {a : ReactorStep LoopTask} {out : List (ReactorEvent LoopTask)}
    {r : Reactor LoopTask} (h : (s.reactors p).step a = ⟨out, .ok r⟩) :
    s.onReactor p a = ⟨out.map (.loop p), .ok { s with reactors := Function.update s.reactors p r }⟩ := by
  rw [onReactor, h]
  exact congrArg (Traced.mk · _) (List.append_nil _)

/-- A step at the loop `p` keeps what holds of the others. -/
theorem Deals.update (h : Deals threadOf baseLoop loops past s) {pool : ReactorThreadPool} {p : Nat}
    {r : Reactor LoopTask} {out : List ServerLoopEvent} (hbase : pool.baseLoop = baseLoop)
    (hloops : pool.ioLoops = loops) (hturn : pool.AtTurn (acceptedOf (past ++ out)).length)
    (hthread : r.threadId = threadOf p) (hawake : r.Awake)
    (hdealt : establishedBy p (past ++ out) ++ r.bound = dealtTo loops p (acceptedOf (past ++ out)))
    (honce : threadOf p = threadOf baseLoop → r.bound = [])
    (hother : ∀ q, q ≠ p → establishedBy q out = [] ∧
      dealtTo loops q (acceptedOf (past ++ out)) = dealtTo loops q (acceptedOf past)) :
    Deals threadOf baseLoop loops (past ++ out) ⟨pool, Function.update s.reactors p r⟩ := by
  have hupdate : ∀ {Q : Nat → Reactor LoopTask → Prop}, Q p r → (∀ q, q ≠ p → Q q (s.reactors q)) →
      ∀ q, Q q (Function.update s.reactors p r q) := by
    intro Q hp hq q
    by_cases hqp : q = p
    · subst hqp
      rwa [Function.update_self]
    · rw [Function.update_of_ne hqp]
      exact hq q hqp
  refine ⟨hbase, hloops, hturn, ?_, ?_, ?_, ?_⟩
  · exact hupdate (Q := fun q x => x.threadId = threadOf q) hthread fun q _ => h.threadId_eq q
  · exact hupdate (Q := fun _ x => x.Awake) hawake fun q _ => h.awake q
  · refine hupdate (Q := fun q x => establishedBy q (past ++ out) ++ x.bound = dealtTo loops q _) hdealt ?_
    intro q hq
    rcases hother q hq with ⟨hnone, hsame⟩
    rw [establishedBy_append, hnone, List.append_nil, hsame]
    exact h.dealt q
  · exact hupdate (Q := fun q x => threadOf q = threadOf baseLoop → x.bound = []) honce
      fun q _ => h.atOnce q

/-- A step of a loop or of a thread that binds something else. -/
theorem Deals.onReactor (h : Deals threadOf baseLoop loops past s) {p : Nat} {a : ReactorStep LoopTask}
    {out : List (ReactorEvent LoopTask)} {r : Reactor LoopTask} (hmoves : (s.reactors p).Moves a out r)
    (ha : BindsOther a) :
    Deals threadOf baseLoop loops (past ++ out.map (.loop p))
      { s with reactors := Function.update s.reactors p r } := by
  have hbound := Reactor.bound_moves hmoves ha
  have hacc : acceptedOf (past ++ out.map (.loop p)) = acceptedOf past := by
    rw [acceptedOf_append, acceptedOf_loop, List.append_nil]
  refine h.update h.baseLoop_eq h.ioLoops_eq (hacc ▸ h.turn) (hmoves.threadId_eq.trans (h.threadId_eq p))
    ((h.awake p).moves hmoves) ?_ ?_ ?_
  · rw [establishedBy_append, establishedBy_loop, if_pos rfl, List.append_assoc, ← hbound, hacc]
    exact h.dealt p
  · intro hp
    rw [h.atOnce p hp] at hbound
    exact (List.append_eq_nil_iff.mp hbound.symm).2
  · intro q hq
    rw [establishedBy_loop, if_neg (Ne.symm hq), hacc]
    exact ⟨rfl, rfl⟩

/-- What `runInLoop` does with a connection: the loop that accepts establishes it at once. -/
theorem runInLoop_connEstablished (h : Deals threadOf baseLoop loops past s) (p conn : Nat)
    (hidle : (s.reactors p).calls s.baseThread = none) :
    ∃ e r, (s.reactors p).runInLoop s.baseThread (.connEstablished conn) = ⟨[e], .ok r⟩ ∧
      r.threadId = threadOf p ∧ r.Awake ∧
      e.established?.toList ++ r.bound = (s.reactors p).bound ++ [conn] ∧
      (threadOf p = threadOf baseLoop → r.bound = []) := by
  have hbase : s.baseThread = threadOf baseLoop := by rw [baseThread, h.threadId_eq, h.baseLoop_eq]
  by_cases hthread : (s.reactors p).isInLoopThread s.baseThread
  · have hsame : threadOf p = threadOf baseLoop := by
      rw [← h.threadId_eq p, ← hbase]
      exact hthread
    have hnil := h.atOnce p hsame
    refine ⟨.called (.connEstablished conn), s.reactors p, ?_, h.threadId_eq p, h.awake p, ?_,
      fun _ => hnil⟩
    · rw [Reactor.runInLoop, if_pos hthread]
      rfl
    · rw [hnil]
      rfl
  · have hmoves := Reactor.Moves.push (s := s.reactors p) (a := .queueInLoop s.baseThread
      (.connEstablished conn)) (.inl rfl) ⟨hidle, fun hloop => absurd hloop hthread⟩
    refine ⟨.pushed (.connEstablished conn), _, ?_, hmoves.threadId_eq.trans (h.threadId_eq p),
      (h.awake p).moves hmoves, ?_, ?_⟩
    · rw [Reactor.runInLoop, if_neg hthread]
      rfl
    · have hwaiting := congrArg (List.filterMap LoopTask.conn?) (Reactor.waiting_moves hmoves)
      rw [List.filterMap_append] at hwaiting
      exact hwaiting.symm
    · intro hsame
      refine absurd ?_ hthread
      rw [Reactor.isInLoopThread, h.threadId_eq p, hbase, hsame]

/-- A connection goes to the loop whose turn it is. -/
theorem Deals.newConnAccept (h : Deals threadOf baseLoop loops past s) {conn : Nat}
    (ha : s.Allowed (.newConnAccept conn true)) : ∃ out s', s.newConnAccept conn true = ⟨out, .ok s'⟩ ∧
      Deals threadOf baseLoop loops (past ++ out) s' := by
  rcases h.turn.nextLoop with ⟨p, pool, hnext, hp, hbaseLoop, hioLoops, hturn⟩
  rw [h.ioLoops_eq] at hp
  rcases runInLoop_connEstablished h p conn (ha.2 p) with ⟨e, r, hrun, hthread, hawake, hconn, honce⟩
  have hacc : acceptedOf (past ++ [.accepted conn, .loop p e]) = acceptedOf past ++ [conn] := by
    rw [acceptedOf_append]
    rfl
  have hest : ∀ q, establishedBy q [.accepted conn, .loop p e] =
      if p = q then e.established?.toList else [] := by
    intro q
    have hloop := establishedBy_loop q p [e]
    rw [List.filterMap_cons] at hloop
    rw [establishedBy, List.filterMap_cons_none rfl]
    refine hloop.trans ?_
    cases e.established? <;> rfl
  refine ⟨[.accepted conn, .loop p e], ⟨pool, Function.update s.reactors p r⟩, ?_, ?_⟩
  · have hon := onReactor_eq (s := { s with threadPool := pool }) (p := p)
      (a := .runInLoop s.baseThread (.connEstablished conn)) hrun
    rw [ServerLoops.newConnAccept, hnext, Traced.ofExcept_ok, pure_bind]
    dsimp only
    rw [Traced.require_true rfl, pure_bind, Traced.emit_bind, hon]
    rfl
  · refine h.update (hbaseLoop.trans h.baseLoop_eq) (hioLoops.trans h.ioLoops_eq) ?_ hthread hawake ?_
      honce ?_
    · rwa [hacc, List.length_append]
    · rw [hacc, dealtTo_concat, if_pos hp, establishedBy_append, hest, if_pos rfl, List.append_assoc, hconn,
        ← List.append_assoc, h.dealt p]
    · intro q hq
      have hne : loops[(acceptedOf past).length % loops.length]? ≠ some q := by
        rw [hp]
        exact fun heq => hq (Option.some.inj heq).symm
      rw [hest, if_neg (Ne.symm hq), hacc, dealtTo_concat, if_neg hne, List.append_nil]
      exact ⟨rfl, rfl⟩

theorem Deals.newConnAccept_unnamed (h : Deals threadOf baseLoop loops past s) (conn : Nat) :
    s.newConnAccept conn false = Traced.fail .assertion := by
  rcases h.turn.nextLoop with ⟨p, pool, hnext, -⟩
  rw [ServerLoops.newConnAccept, hnext, Traced.ofExcept_ok, pure_bind]
  rfl

/-- Every step succeeds and keeps the invariant, or fails as `Fails` says. -/
theorem Deals.step (h : Deals threadOf baseLoop loops past s) {a : ServerLoopStep} (ha : s.Allowed a) :
    (∃ out s', s.step a = ⟨out, .ok s'⟩ ∧ Deals threadOf baseLoop loops (past ++ out) s' ∧ ¬s.Fails a) ∨
      (s.step a).result = .error .assertion ∧ s.Fails a := by
  cases a with
  | newConnAccept conn named =>
      cases named with
      | true =>
          rcases h.newConnAccept ha with ⟨out, s', hstep, hdeals⟩
          exact .inl ⟨out, s', hstep, hdeals, nofun⟩
      | false => exact .inr ⟨congrArg Traced.result (h.newConnAccept_unnamed conn), .unnamed⟩
  | reactor p a =>
      rcases Reactor.step_moves (h.awake p) ha.1 with ⟨out, r, hstep, hmoves⟩ | ⟨hstep, hoverflows⟩
      · refine .inl ⟨_, _, onReactor_eq hstep, h.onReactor hmoves ha.2.1, ?_⟩
        rintro ⟨⟩
        exact hmoves.not_overflows ‹_›
      · refine .inr ⟨?_, .overflow hoverflows⟩
        change (s.onReactor p a).result = _
        rw [ServerLoops.onReactor, hstep]
        rfl

theorem Deals.of_result (h : Deals threadOf baseLoop loops past s) {a : ServerLoopStep} (ha : s.Allowed a)
    (hok : (s.step a).result = .ok s') : Deals threadOf baseLoop loops (past ++ (s.step a).out) s' := by
  rcases h.step ha with ⟨out, s'', hstep, hdeals, -⟩ | ⟨herr, -⟩
  · rw [hstep] at hok ⊢
    rcases Except.ok.inj hok
    exact hdeals
  · rw [herr] at hok
    cases hok

theorem deals_invariant (threadOf : Nat → Nat) (baseLoop : Nat) (loops : List Nat) :
    serverLoopMachine.Invariant fun s => ∃ past, Deals threadOf baseLoop loops past s := by
  rintro s a s' ⟨past, h⟩ ha hok
  exact ⟨_, h.of_result ha hok⟩

theorem deals_failsAs (threadOf : Nat → Nat) (baseLoop : Nat) (loops : List Nat) :
    serverLoopMachine.FailsAs (fun s => ∃ past, Deals threadOf baseLoop loops past s)
      fun s a e => e = .assertion ∧ s.Fails a := by
  rintro s a e ⟨past, h⟩ ha
  change (s.step a).result = _ ↔ _
  rcases h.step ha with ⟨out, s', hstep, -, hnot⟩ | ⟨herr, hfails⟩
  · simp [hstep, hnot]
  · simp [herr, hfails, eq_comm]

theorem deals_start (threadOf : Nat → Nat) (baseLoop numThreads : Nat) (startLoop : Nat → Nat) :
    Deals threadOf baseLoop
      (if numThreads = 0 then [baseLoop] else (List.range numThreads).map startLoop) []
      (.start threadOf baseLoop numThreads startLoop) := by
  refine ⟨rfl, ?_, fun _ => (Nat.zero_mod _).symm, fun _ => rfl, fun p => Reactor.awake_new (threadOf p),
    fun _ => rfl, fun _ _ => rfl⟩
  by_cases hnum : numThreads = 0 <;>
    simp [start, ReactorThreadPool.start, ReactorThreadPool.setThreadNum, ReactorThreadPool.new,
      ReactorThreadPool.ioLoops, hnum]

theorem Deals.run (h : Deals threadOf baseLoop loops [] s) {inputs : List ServerLoopStep}
    (hl : serverLoopMachine.Legal s inputs) (hrun : (serverLoopMachine.run s inputs).result = .ok s') :
    Deals threadOf baseLoop loops (serverLoopMachine.run s inputs).out s' := by
  refine Machine.run_history (P := Deals threadOf baseLoop loops) ?_ h hl hrun
  intro past s a s' hs ha hok
  exact hs.of_result ha hok

end ServerLoops

/-- In every run the connections that a loop has established, and those bound for it, are those that have
been dealt to it, in the order in which they were accepted. A loop of the accepting thread has none to
establish, another one does not sleep on one and has at most one connection more than any other. A run
ends early exactly if `getsockname` fails or an eventfd is full. -/
theorem connectionsDealt (threadOf : Nat → Nat) (baseLoop numThreads : Nat) {startLoop : Nat → Nat}
    (hstart : Function.Injective startLoop) {inputs : List ServerLoopStep}
    (hlegal : serverLoopMachine.Legal (.start threadOf baseLoop numThreads startLoop) inputs) :
    let ended := serverLoopMachine.run (.start threadOf baseLoop numThreads startLoop) inputs
    let loops := if numThreads = 0 then [baseLoop] else (List.range numThreads).map startLoop
    (∀ s, ended.result = .ok s →
      (∀ p, establishedBy p ended.out ++ (s.reactors p).bound = dealtTo loops p (acceptedOf ended.out) ∧
        (threadOf p = threadOf baseLoop → (s.reactors p).bound = []) ∧
        (s.reactors p).WakesUp ∧ (s.reactors p).Drains) ∧
      ∀ i p, loops[i]? = some p → (establishedBy p ended.out).length + (s.reactors p).bound.length =
        (acceptedOf ended.out).length / loops.length +
          if i < (acceptedOf ended.out).length % loops.length then 1 else 0) ∧
    ∀ e, ended.result = .error e ↔ ∃ before a s, before ++ [a] <+: inputs ∧
      (serverLoopMachine.run (.start threadOf baseLoop numThreads startLoop) before).result = .ok s ∧
      e = .assertion ∧ s.Fails a := by
  intro ended loops
  have hdeals := ServerLoops.deals_start threadOf baseLoop numThreads startLoop
  refine ⟨?_, fun e => Machine.Invariant.result_error_iff
    (ServerLoops.deals_invariant threadOf baseLoop loops)
    (ServerLoops.deals_failsAs threadOf baseLoop loops) ⟨[], hdeals⟩ hlegal⟩
  intro s hs
  have hend := hdeals.run hlegal hs
  refine ⟨fun p => ⟨hend.dealt p, hend.atOnce p, (hend.awake p).wakesUp, (hend.awake p).drains⟩, ?_⟩
  intro i p hp
  have hnodup : loops.Nodup := by
    by_cases hnum : numThreads = 0
    · simp [loops, hnum]
    · simpa only [loops, if_neg hnum] using List.nodup_range.map hstart
  rcases List.getElem?_eq_some_iff.mp hp with ⟨hi, rfl⟩
  rw [← length_dealtTo hnodup hi, ← List.length_append]
  exact congrArg List.length (hend.dealt _)

/-- Three connections for the two loops of a server, of which the first one establishes its first. -/
def threeConnections : List ServerLoopStep :=
  [.reactor 0 (.poll [.socket 3]), .reactor 0 .loop, .newConnAccept 7 true, .reactor 1 (.proceed 0),
    .reactor 1 (.proceed 0), .newConnAccept 8 true, .reactor 1 (.poll [.taskHandler]), .reactor 1 .loop,
    .reactor 1 .loop, .reactor 1 .loop, .reactor 1 .loop, .reactor 1 .loop, .reactor 1 .loop,
    .reactor 2 (.proceed 0), .reactor 2 (.proceed 0), .newConnAccept 9 true]

theorem connectionsDealt_threeConnections :
    let ended := serverLoopMachine.run (.start id 0 2 Nat.succ) threeConnections
    let loops := if 2 = 0 then [0] else (List.range 2).map Nat.succ
    (∀ s, ended.result = .ok s →
      (∀ p, establishedBy p ended.out ++ (s.reactors p).bound = dealtTo loops p (acceptedOf ended.out) ∧
        (id p = id 0 → (s.reactors p).bound = []) ∧
        (s.reactors p).WakesUp ∧ (s.reactors p).Drains) ∧
      ∀ i p, loops[i]? = some p → (establishedBy p ended.out).length + (s.reactors p).bound.length =
        (acceptedOf ended.out).length / loops.length +
          if i < (acceptedOf ended.out).length % loops.length then 1 else 0) ∧
    ∀ e, ended.result = .error e ↔ ∃ before a s, before ++ [a] <+: threeConnections ∧
      (serverLoopMachine.run (.start id 0 2 Nat.succ) before).result = .ok s ∧
      e = .assertion ∧ s.Fails a := by
  apply connectionsDealt id 0 2 Nat.succ_injective
  have hloop : ∀ {s : ServerLoops} {rest : List ServerLoopStep} {s' : ServerLoops},
      (s.step (.reactor 1 .loop)).result = .ok s' → (s.reactors 1).phase ≠ .polling →
      (s.reactors 1).threadId = 1 → (∀ q, (s.reactors q).calls 1 = none) → serverLoopMachine.Legal s' rest →
      serverLoopMachine.Legal s (.reactor 1 .loop :: rest) := by
    intro s rest s' hok hphase hthread hcalls hrest
    refine Machine.legal_cons ⟨⟨hphase, ?_⟩, trivial, fun _ q => ?_⟩ hok hrest
    · rw [hthread]
      exact hcalls 1
    · rw [hthread]
      exact hcalls q
  refine Machine.legal_cons ⟨⟨rfl, by simp, by simp⟩, trivial, by simp⟩ rfl ?_
  refine Machine.legal_cons ⟨⟨by simp [ServerLoops.start], rfl⟩, trivial, ?_⟩ rfl ?_
  · intro _ q
    cases q <;> rfl
  refine Machine.legal_cons ⟨⟨[], rfl⟩, ?_⟩ rfl ?_
  · intro q
    cases q <;> rfl
  refine Machine.legal_cons ⟨?_, trivial, by simp⟩ rfl ?_
  · exact Option.some_ne_none _
  refine Machine.legal_cons ⟨?_, trivial, by simp⟩ rfl ?_
  · exact Option.some_ne_none _
  refine Machine.legal_cons ⟨⟨[], rfl⟩, ?_⟩ rfl ?_
  · intro q
    rcases q with _ | _ | q <;> rfl
  refine Machine.legal_cons ⟨⟨rfl, by simp, fun _ => Nat.one_pos⟩, trivial, by simp⟩ rfl ?_
  refine hloop rfl nofun rfl (fun q => by rcases q with _ | _ | _ | q <;> rfl) ?_
  refine hloop rfl nofun rfl (fun q => by rcases q with _ | _ | _ | q <;> rfl) ?_
  refine hloop rfl nofun rfl (fun q => by rcases q with _ | _ | _ | q <;> rfl) ?_
  refine hloop rfl nofun rfl (fun q => by rcases q with _ | _ | _ | q <;> rfl) ?_
  refine hloop rfl nofun rfl (fun q => by rcases q with _ | _ | _ | q <;> rfl) ?_
  refine hloop rfl nofun rfl (fun q => by rcases q with _ | _ | _ | q <;> rfl) ?_
  refine Machine.legal_cons ⟨?_, trivial, by simp⟩ rfl ?_
  · exact Option.some_ne_none _
  refine Machine.legal_cons ⟨?_, trivial, by simp⟩ rfl ?_
  · exact Option.some_ne_none _
  refine Machine.legal_cons ⟨⟨[], rfl⟩, ?_⟩ rfl trivial
  intro q
  rcases q with _ | _ | _ | q <;> rfl

end WebsocketCpp
