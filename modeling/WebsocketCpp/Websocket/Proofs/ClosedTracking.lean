import WebsocketCpp.Net.Proofs.HandlerLife
import WebsocketCpp.Websocket.Proofs.LastSeen
import WebsocketCpp.Websocket.ServerHeartbeat

/-!
# Connections that are closed and still tracked

`handleClose` calls the connection callback, which takes the connection for a new one.
`closedUntracked_iff`: a connection that is closed is out of the heartbeat's list exactly in the runs in
which none is closed.
-/

namespace WebsocketCpp

open Traced

/-- In every state that is reached, a connection whose `handleClose` has completed is not in
`connList_`. -/
def ClosedUntracked (moments : Nat → WebSocketServer.Moment) (steps : List TrackStep) : Prop :=
  ∀ before, before <+: steps → ∀ s, (trackMachine.run (.start moments) before).result = .ok s →
    ∀ p peer, s.peers p = some peer → peer.use.conn.event = none →
      p ∉ s.serving.heart.connList.map Prod.fst

namespace TrackingServer

variable {s s' : TrackingServer}

/-- The step is no `handleClose` of a connection that has its handler. -/
def NoneClosed (s : TrackingServer) : TrackStep → Prop
  | .conn p a _ => ∀ peer, s.peers p = some peer → peer.use.Closes a → peer.use.conn.event = none
  | .newConnAccept _ | .connEstablished _ | .timerCallback _ => True

/-- Every connection has its handler and its callbacks. -/
def AllOpen (s : TrackingServer) : Prop :=
  ∀ p peer, s.peers p = some peer →
    peer.use.conn.event ≠ none ∧ peer.use.conn.funcs = serverFuncs

theorem object_ok {p : Nat} {peer : Peer} (h : s.peers p = some peer) : s.object p = pure peer := by
  rw [object, h]

theorem AllOpen.setPeer (h : s.AllOpen) {p : Nat} {peer : Peer} (hopen : peer.use.conn.event ≠ none)
    (hfuncs : peer.use.conn.funcs = serverFuncs) : (s.setPeer p peer).AllOpen := by
  intro q peer' hq
  rcases Heap.update_some_iff.mp hq with ⟨-, rfl⟩ | ⟨-, hq⟩
  · exact ⟨hopen, hfuncs⟩
  · exact h q peer' hq

theorem allOpen_connEstablished (h : s.AllOpen) {p : Nat} {peer : Peer} (hp : s.peers p = some peer)
    (hok : (s.connEstablished p).result = .ok s') : s'.AllOpen := by
  rw [connEstablished, object_ok hp, pure_bind] at hok
  obtain ⟨⟨serving, conn⟩, hhandle, hs'⟩ := result_bind hok
  obtain rfl := Except.ok.inj hs'
  obtain ⟨hopen, -, hfuncs⟩ := Connection.connEstablished_ok (result_mapFault (result_handle hhandle).2)
  exact AllOpen.setPeer (s := { s with serving := serving }) h hopen (hfuncs.trans (h p peer hp).2)

theorem allOpen_useConn (h : s.AllOpen) {p : Nat} {peer : Peer} (hp : s.peers p = some peer)
    {a : ConnStep} {heap : Nat → UInt8} (hkept : peer.use.Closes a → peer.use.conn.event = none)
    (hok : (s.useConn p a heap).result = .ok s') : s'.AllOpen := by
  rw [useConn, object_ok hp, pure_bind] at hok
  obtain ⟨⟨serving, use⟩, hhandle, hs'⟩ := result_bind hok
  obtain rfl := Except.ok.inj hs'
  obtain ⟨hopen, hfuncs⟩ := h p peer hp
  obtain ⟨hfuncs', hevent⟩ := ConnUse.step_ok (result_mapFault (result_handle hhandle).2)
  refine AllOpen.setPeer (s := { s with serving := serving }) h ?_ (hfuncs'.trans hfuncs)
  intro hnone
  rcases hevent with ⟨hcloses, -, -⟩ | ⟨-, hevent⟩
  · exact hopen (hkept hcloses)
  · exact hopen (hevent.mp hnone)

/-- `forceClose` only posts. -/
theorem forceClose_conn (u : ConnUse) :
    u.forceClose.conn.event = u.conn.event ∧ u.forceClose.conn.funcs = u.conn.funcs := by
  rw [ConnUse.forceClose]
  split <;> exact ⟨rfl, rfl⟩

theorem allOpen_onRecv (h : s.AllOpen) {e : RecvEvent} (hok : (s.onRecv e).result = .ok s') :
    s'.AllOpen := by
  cases e with
  | serve e => exact Except.ok.inj hok ▸ h
  | forceClose p =>
      obtain ⟨-, -, hclose⟩ := result_bind hok
      obtain ⟨peer, hpeer, hs'⟩ := result_bind hclose
      obtain rfl := Except.ok.inj hs'
      have hp : s.peers p = some peer := by
        rw [object] at hpeer
        cases hfind : s.peers p with
        | none =>
            rw [hfind] at hpeer
            cases hpeer
        | some peer' =>
            rw [hfind] at hpeer
            exact congrArg some (Except.ok.inj hpeer)
      obtain ⟨hopen, hfuncs⟩ := h p peer hp
      obtain ⟨hevent, hfuncs'⟩ := forceClose_conn peer.use
      exact h.setPeer (by rwa [hevent]) (by rwa [hfuncs'])

theorem allOpen_foldlM {es : List RecvEvent} (h : s.AllOpen) (hok : (es.foldlM onRecv s).result = .ok s') :
    s'.AllOpen := by
  induction es generalizing s with
  | nil => exact Except.ok.inj hok ▸ h
  | cons e es ih =>
      obtain ⟨s₁, hs₁, hrest⟩ := result_bind hok
      exact ih (allOpen_onRecv h hs₁) hrest

theorem allOpen_step (h : s.AllOpen) {a : TrackStep} (ha : s.Allowed a) (hnone : s.NoneClosed a)
    (hok : (s.step a).result = .ok s') : s'.AllOpen := by
  cases a with
  | newConnAccept p =>
      obtain rfl := Except.ok.inj hok
      exact h.setPeer nofun rfl
  | connEstablished p =>
      obtain ⟨peer, hp, -⟩ := ha
      exact allOpen_connEstablished h hp hok
  | conn p a heap =>
      obtain ⟨peer, hp, -⟩ := ha
      exact allOpen_useConn h hp (hnone peer hp) hok
  | timerCallback now =>
      obtain ⟨⟨s₁, heart⟩, hhandle, hs'⟩ := result_bind hok
      obtain rfl := Except.ok.inj hs'
      have hopen : s₁.AllOpen := allOpen_foldlM h (result_handle hhandle).1
      exact hopen

theorem allOpen_invariant : (trackMachine.restrict NoneClosed).Invariant AllOpen :=
  fun _ _ _ h ha hok => allOpen_step h ha.1 ha.2 hok

/-! ## A connection that is closed -/

/-- `onConnNew` puts the connection into the list, or finds it there. -/
theorem onConnNew_ok (p : Nat) (serving : WebSocketServer.Serving) : ∃ out serving',
    WebSocketServer.onConnNew p serving = ⟨out, .ok serving'⟩ ∧
      p ∈ serving'.heart.connList.map Prod.fst := by
  have hcall : (⟨[], 0⟩ : FrameCall).len ≤ (⟨[], 0⟩ : FrameCall).data.length := Nat.le_refl 0
  obtain ⟨out, ret, heq⟩ := serving.heart.updateConn_ok (serving.moments 0).header p
    (serving.moments 0).now hcall
  rw [WebSocketServer.onConnNew, heq, mk_bind]
  refine ⟨_, _, rfl, ?_⟩
  change p ∈ (touch p _ serving.heart.connList).map Prod.fst
  rw [map_fst_touch]
  split
  · assumption
  · exact List.mem_append_right _ (List.mem_singleton_self p)

/-- When `handleClose` has completed, the connection is in the list. -/
theorem tracked_of_closes (h : s.AllOpen) {p : Nat} {peer : Peer} (hp : s.peers p = some peer)
    {a : ConnStep} (hcloses : peer.use.Closes a) (heap : Nat → UInt8) :
    ∃ s' peer', (s.useConn p a heap).result = .ok s' ∧ s'.peers p = some peer' ∧
      peer'.use.conn.event = none ∧ p ∈ s'.serving.heart.connList.map Prod.fst := by
  obtain ⟨hopen, hfuncs⟩ := h p peer hp
  obtain ⟨use, hstep⟩ := ConnUse.step_of_closes hcloses hopen
  have hclosed : use.conn.event = none := by
    rcases (ConnUse.step_ok (congrArg Traced.result hstep)).2 with ⟨-, -, hclosed⟩ | ⟨hnot, -⟩
    · exact hclosed
    · exact absurd hcloses hnot
  obtain ⟨out, serving, hnew, hmem⟩ := onConnNew_ok p s.serving
  have hfold : (peer.use.conn.funcs.closing.foldlM (onConn p heap) s.serving).result = .ok serving := by
    rw [hfuncs]
    rw [ConnFuncs.closing, serverFuncs]
    change (onConn p heap s.serving (.connCallbackFunc .eDisconnected) >>=
      fun serving => [ConnEvent.closeFunc].foldlM (onConn p heap) serving).result = .ok serving
    simp only [onConn, hnew]
    rfl
  have hhandle : handle (onConn p heap) s.serving (mapFault .object (peer.use.step a)) =
      ⟨(peer.use.conn.funcs.closing.foldlM (onConn p heap) s.serving).out, .ok (serving, use)⟩ := by
    rw [hstep]
    exact handle_ok (by rw [← hfold]) use
  refine ⟨{ s with serving := serving }.setPeer p { peer with use := use }, _, ?_,
    Function.update_self .., hclosed, hmem⟩
  rw [useConn, object_ok hp, pure_bind, hhandle]
  rfl

end TrackingServer

/-- A connection that is closed is out of the list exactly in the runs in which no connection is closed. -/
theorem closedUntracked_iff {moments : Nat → WebSocketServer.Moment} {steps : List TrackStep}
    (hlegal : trackMachine.Legal (.start moments) steps) : ClosedUntracked moments steps ↔
      (trackMachine.restrict TrackingServer.NoneClosed).Legal (.start moments) steps := by
  have hstart : (TrackingServer.start moments).AllOpen := fun _ _ h => by cases h
  constructor
  · intro h
    apply Machine.legal_restrict_of_forall hlegal
    intro before a s hpre hbefore hs
    have hopen := TrackingServer.allOpen_invariant.run hstart hbefore hs
    cases a with
    | newConnAccept p => trivial
    | connEstablished p => trivial
    | timerCallback now => trivial
    | conn p a heap =>
        intro peer hp hcloses
        obtain ⟨s', peer', hok, hp', hclosed, hmem⟩ :=
          TrackingServer.tracked_of_closes hopen hp hcloses heap
        have hs' : (trackMachine.run (.start moments) (before ++ [.conn p a heap])).result = .ok s' := by
          rw [Machine.run_append, bind_of_ok hs, Machine.run_singleton]
          exact hok
        exact absurd hmem (h _ hpre s' hs' p peer' hp' hclosed)
  · intro h before hpre s hs p peer hp hclosed
    obtain ⟨after, rfl⟩ := hpre
    have hopen := TrackingServer.allOpen_invariant.run hstart (Machine.legal_append.mp h).1 hs
    exact absurd hclosed (hopen p peer hp).1

/-- The timer runs while a connection is open. -/
theorem closedUntracked_iff_open :
    ClosedUntracked (fun _ => ⟨⟨0, 0, 0, 0, 0⟩, 7⟩) [.newConnAccept 1, .connEstablished 1, .timerCallback 0] ↔
      (trackMachine.restrict TrackingServer.NoneClosed).Legal (.start fun _ => ⟨⟨0, 0, 0, 0, 0⟩, 7⟩)
        [.newConnAccept 1, .connEstablished 1, .timerCallback 0] := by
  apply closedUntracked_iff
  refine Machine.legal_cons rfl rfl ?_
  exact Machine.legal_cons ⟨_, rfl, rfl⟩ rfl ⟨trivial, fun _ _ => trivial⟩

/-- A connection is established and closed by its peer. -/
def closeRun : List TrackStep :=
  [.newConnAccept 1, .connEstablished 1, .conn 1 (.handleRead .eof) fun _ => 0]

theorem not_closedUntracked_close :
    trackMachine.Legal (.start fun _ => ⟨⟨0, 0, 0, 0, 0⟩, 7⟩) closeRun ∧
      ¬ClosedUntracked (fun _ => ⟨⟨0, 0, 0, 0, 0⟩, 7⟩) closeRun := by
  constructor
  · refine Machine.legal_cons rfl rfl ?_
    refine Machine.legal_cons ⟨_, rfl, rfl⟩ rfl ?_
    exact Machine.legal_cons ⟨_, rfl, rfl, nofun⟩ rfl trivial
  · intro h
    exact h _ (List.prefix_refl _) _ rfl 1 _ rfl rfl (List.mem_singleton_self 1)

end WebsocketCpp
