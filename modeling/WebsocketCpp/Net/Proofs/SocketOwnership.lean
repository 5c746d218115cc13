import WebsocketCpp.Misc.Heap
import WebsocketCpp.Misc.Ownership
import WebsocketCpp.Net.Proofs.HandlerLife
import WebsocketCpp.Net.Sockets

/-!
# Who owns a socket

No destructor closes a descriptor, and besides the acceptor and `retry` nobody does.
`noSocketLeaked_iff`: every open socket is owned, and closed once when it is given up, in the runs in which
nobody drops one.
A connection that is closed drops its own.
-/

namespace WebsocketCpp

/-- The descriptor that the kernel has opened for an event. -/
def SocketEvent.obtained : SocketEvent → Option Int
  | .accept connfd => if 0 ≤ connfd then some connfd else none
  | .connector _ (.socket sockfd) => some sockfd
  | _ => none

/-- `event_` of the connector of a client, or a connection whose `handleClose` has not run. -/
inductive SocketOwner where
  | connector (i : Nat)
  | conn (p : Nat)
  deriving DecidableEq

def SocketConn.holds (c : SocketConn) : Option Int := c.use.conn.event.map fun _ => c.fd

namespace Process

def holds (s : Process) : SocketOwner → Option Int
  | .connector i => (s.clients i).connector.event
  | .conn p => (s.conns p).bind SocketConn.holds

/-- The descriptor was held before the step, or is obtained in it, and nobody holds it afterwards. -/
def GivenUp (s : Process) (out : List SocketEvent) (s' : Process) (fd : Int) : Prop :=
  (fd ∈ out.filterMap SocketEvent.obtained ∨ ∃ o, s.holds o = some fd) ∧ ∀ o, s'.holds o ≠ some fd

/-- What a step closes is what is given up in it, each once. -/
structure ClosedOnce (s : Process) (out : List SocketEvent) (s' : Process) : Prop where
  nodup : (out.filterMap SocketEvent.closed).Nodup
  mem_iff : ∀ fd, fd ∈ out.filterMap SocketEvent.closed ↔ s.GivenUp out s' fd

/-- The step drops no descriptor: `accept` does not return 0, no attempt is started while another one
is under way or ends with an error that `connect` passes over, and no connection is closed. -/
def Kept (s : Process) : SocketStep → Prop
  | .acceptorHandleRead connfd _ _ => connfd ≠ 0
  | .startInLoop i _ err => (s.clients i).connector.state = .eDisconnected →
      err.Pending ∧ (s.clients i).connector.event = none ∨ err.Retried
  | .conn p a => ∀ c, s.conns p = some c → c.use.Closes a → c.use.conn.event = none
  | .connEstablished _ | .connectorHandleWrite _ _ _ _ => True

end Process

/-- In every state that is reached every open descriptor is held, and every step closes what is given
up in it, once. -/
def NoSocketLeaked (s : Process) (steps : List SocketStep) : Prop :=
  (∀ before, before <+: steps → ∀ s', (socketMachine.run s before).result = .ok s' →
    ∀ fd ∈ s'.opened, ∃ o, s'.holds o = some fd) ∧
  ∀ before a, before ++ [a] <+: steps → ∀ s' s'', (socketMachine.run s before).result = .ok s' →
    (s'.step a).result = .ok s'' → s'.ClosedOnce (s'.step a).out s''

/-! ## Steps of a process -/

namespace Process

variable {s s' : Process}

/-- Every open descriptor has its owner. A connector whose attempt is under way is not connected, and
a client has a connection only if it is. -/
structure Sound (s : Process) : Prop where
  exact : Exact s.holds s.opened
  noTimer : ∀ i, (s.clients i).connector.NoTimer
  underWay : ∀ i, (s.clients i).connector.event ≠ none →
    (s.clients i).connector.state = .eDisconnected
  done : ∀ i, (s.clients i).conn ≠ none → (s.clients i).connector.state = .eConnected

theorem holds_setConn (p : Nat) (c : Option SocketConn) :
    (s.setConn p c).holds = Function.update s.holds (.conn p) (c.bind SocketConn.holds) := by
  funext o
  cases o with
  | connector i =>
      rw [Function.update_of_ne (by simp)]
      rfl
  | conn q =>
      by_cases heq : q = p
      · subst heq
        rw [Function.update_self, holds, setConn]
        exact congrArg (Option.bind · _) (Function.update_self ..)
      · rw [Function.update_of_ne (by simpa using heq)]
        exact congrArg (Option.bind · _) (Function.update_of_ne heq ..)

theorem holds_setConnector (i : Nat) (c : Connector) :
    (s.setConnector i c).holds = Function.update s.holds (.connector i) c.event := by
  funext o
  cases o with
  | conn q =>
      rw [Function.update_of_ne (by simp)]
      rfl
  | connector j =>
      by_cases heq : j = i
      · subst heq
        simp [holds, setConnector]
      · rw [Function.update_of_ne (by simpa using heq)]
        exact congrArg (fun c : NetClient => c.connector.event) (Function.update_of_ne heq ..)

theorem holds_newConnection (p : Nat) (sockfd : Int) (funcs : ConnFuncs) :
    (s.newConnection p sockfd funcs).holds = Function.update s.holds (.conn p) (some sockfd) :=
  holds_setConn ..

/-- Nothing is closed, and whoever holds a descriptor keeps it or passes it on. -/
theorem closedOnce_of_quiet {out : List SocketEvent} (hquiet : out.filterMap SocketEvent.closed = [])
    (hkept : ∀ fd, (fd ∈ out.filterMap SocketEvent.obtained ∨ ∃ o, s.holds o = some fd) →
      ∃ o, s'.holds o = some fd) : s.ClosedOnce out s' where
  nodup := hquiet ▸ .nil
  mem_iff fd := by
    rw [hquiet]
    apply iff_of_false List.not_mem_nil
    rintro ⟨hheld, hnone⟩
    rcases hkept fd hheld with ⟨o, ho⟩
    exact hnone o ho

/-- What a connection does by itself neither opens nor closes a descriptor. -/
theorem closed_map_conn (p : Nat) (out : List ConnEvent) :
    (out.map (SocketEvent.conn p)).filterMap SocketEvent.closed = [] := by
  rw [List.filterMap_map, List.filterMap_eq_nil_iff]
  exact fun _ _ => rfl

theorem obtained_map_conn (p : Nat) (out : List ConnEvent) :
    (out.map (SocketEvent.conn p)).filterMap SocketEvent.obtained = [] := by
  rw [List.filterMap_map, List.filterMap_eq_nil_iff]
  exact fun _ _ => rfl

/-- What a step leaves that drops nothing. -/
structure Steps (s : Process) (out : List SocketEvent) (s' : Process) : Prop where
  sound : s'.Sound
  closedOnce : s.ClosedOnce out s'

/-- The clients are as they were. -/
theorem Sound.of_clients (h : s.Sound) (hclients : s'.clients = s.clients)
    (hexact : Exact s'.holds s'.opened) : s'.Sound where
  exact := hexact
  noTimer := hclients ▸ h.noTimer
  underWay := hclients ▸ h.underWay
  done := hclients ▸ h.done

/-- Descriptors that were held before are held after another owner has taken one. -/
theorem held_update {holds : SocketOwner → Option Int} {o : SocketOwner} (hfree : holds o = none)
    {r fd : Int} (h : fd = r ∨ ∃ o', holds o' = some fd) :
    ∃ o', Function.update holds o (some r) o' = some fd := by
  rcases h with rfl | ⟨o', ho'⟩
  · exact ⟨o, Function.update_self ..⟩
  · exact ⟨o', Heap.update_of_free hfree ho' _⟩

theorem holds_conn_of_free {p : Nat} (hfree : s.conns p = none) : s.holds (.conn p) = none := by
  rw [holds, hfree]
  rfl

/-- A connection is constructed for a descriptor that has just been accepted. -/
theorem steps_newConnAccept (h : s.Sound) {connfd : Int} (hconnfd : 0 ≤ connfd)
    (hnew : connfd ∉ s.opened) {p : Nat} (hfree : s.conns p = none) :
    s.Steps [.accept connfd]
      ({ s with opened := insert connfd s.opened }.newConnection p connfd s.serverFuncs) := by
  have hholds : ({ s with opened := insert connfd s.opened }.newConnection p connfd s.serverFuncs).holds =
      Function.update s.holds (.conn p) (some connfd) := holds_newConnection ..
  refine ⟨h.of_clients rfl ?_, closedOnce_of_quiet rfl ?_⟩
  · rw [hholds]
    exact h.exact.acquire (holds_conn_of_free hfree) hnew
  · intro fd hfd
    rw [hholds]
    refine held_update (holds_conn_of_free hfree) (hfd.imp_left ?_)
    intro hfd
    simpa [SocketEvent.obtained, hconnfd] using hfd

/-- A descriptor that has just been opened is closed again. -/
theorem steps_closed (h : s.Sound) {out : List SocketEvent} {sockfd : Int} (hnew : sockfd ∉ s.opened)
    (hclosed : out.filterMap SocketEvent.closed = [sockfd])
    (hobtained : out.filterMap SocketEvent.obtained = [sockfd])
    (hopened : s'.opened = (insert sockfd s.opened).erase sockfd) (hholds : s'.holds = s.holds)
    (hclients : s'.clients = s.clients) : s.Steps out s' := by
  rw [Finset.erase_insert hnew] at hopened
  refine ⟨h.of_clients hclients (by rw [hholds, hopened]; exact h.exact), ?_, fun fd => ?_⟩
  · rw [hclosed]
    exact List.nodup_singleton sockfd
  · rw [hclosed, GivenUp, hobtained, hholds]
    constructor
    · intro hfd
      refine ⟨.inl hfd, fun o ho => hnew ?_⟩
      rw [← List.mem_singleton.mp hfd]
      exact (h.exact.mem_iff fd).mpr ⟨o, ho⟩
    · rintro ⟨hfd | ⟨o, ho⟩, hnone⟩
      · exact hfd
      · exact absurd ho (hnone o)

theorem steps_acceptorHandleRead (h : s.Sound) {connfd : Int} (hnew : connfd ∉ s.opened) {p : Nat}
    (hfree : s.conns p = none) (hne : connfd ≠ 0) {named : Bool}
    (hok : (s.acceptorHandleRead connfd p named).result = .ok s') :
    s.Steps (s.acceptorHandleRead connfd p named).out s' := by
  rw [acceptorHandleRead] at hok ⊢
  by_cases hpos : 0 < connfd
  · simp only [if_pos hpos, if_pos (Int.le_of_lt hpos)] at hok ⊢
    by_cases hfunc : s.acceptConnFunc = true
    · simp only [if_pos hfunc] at hok ⊢
      cases named with
      | false => cases hok
      | true =>
          rcases Except.ok.inj hok with rfl
          exact steps_newConnAccept h (Int.le_of_lt hpos) hnew hfree
    · simp only [if_neg hfunc] at hok ⊢
      rcases Except.ok.inj hok with rfl
      refine steps_closed h hnew rfl ?_ rfl rfl rfl
      change List.filterMap _ [_, _] = _
      simp [SocketEvent.obtained, Int.le_of_lt hpos]
  · have hneg : ¬0 ≤ connfd := by omega
    simp only [if_neg hpos, if_neg hneg] at hok ⊢
    rcases Except.ok.inj hok with rfl
    refine ⟨h, closedOnce_of_quiet rfl ?_⟩
    intro fd hfd
    rcases hfd with hfd | hfd
    · change fd ∈ List.filterMap _ [_] at hfd
      simp [SocketEvent.obtained, hneg] at hfd
    · exact hfd

theorem object_ok {p : Nat} {c : SocketConn} (h : s.conns p = some c) : s.object p = pure c := by
  rw [object, h]

/-- A connection is replaced by one that holds what it held. -/
theorem holds_setConn_of_eq {p : Nat} {c c' : SocketConn} (h : s.conns p = some c)
    (hholds : c'.holds = c.holds) : (s.setConn p (some c')).holds = s.holds := by
  rw [holds_setConn]
  apply Function.update_eq_self_iff.mpr
  rw [holds, h]
  exact hholds

/-- Nothing is opened or closed, and everybody holds what he held. -/
theorem steps_of_holds (h : s.Sound) {out : List SocketEvent}
    (hclosed : out.filterMap SocketEvent.closed = []) (hobtained : out.filterMap SocketEvent.obtained = [])
    (hopened : s'.opened = s.opened) (hclients : s'.clients = s.clients) (hholds : s'.holds = s.holds) :
    s.Steps out s' := by
  refine ⟨h.of_clients hclients ?_, closedOnce_of_quiet hclosed ?_⟩
  · rw [hholds, hopened]
    exact h.exact
  · intro fd hfd
    rw [hobtained] at hfd
    rw [hholds]
    exact hfd.resolve_left List.not_mem_nil

theorem holds_eq_of_isSome {c c' : SocketConn} (hfd : c'.fd = c.fd)
    (hevent : c'.use.conn.event = none ↔ c.use.conn.event = none) : c'.holds = c.holds := by
  rw [SocketConn.holds, SocketConn.holds, hfd]
  cases hc : c.use.conn.event with
  | none => rw [hevent.mpr hc]
  | some ev =>
      obtain ⟨ev', hev'⟩ := Option.ne_none_iff_exists'.mp fun hnone => by
        cases hc.symm.trans (hevent.mp hnone)
      rw [hev']
      rfl

/-- `connEstablished` succeeds on a connection that has its handler, and leaves it that. -/
theorem connEstablished_ok {p : Nat} {c : SocketConn} (hc : s.conns p = some c)
    (hok : (s.connEstablished p).result = .ok s') :
    ∃ (c' : SocketConn) (out : List ConnEvent), c'.holds = c.holds ∧
      s' = s.setConn p (some c') ∧ (s.connEstablished p).out = out.map (SocketEvent.conn p) := by
  rw [connEstablished, object_ok hc, pure_bind] at hok ⊢
  rcases Traced.result_bind hok with ⟨conn, hconn, hs'⟩
  rcases Connection.connEstablished_ok hconn with ⟨hopen', hopen, -⟩
  refine ⟨_, c.use.conn.connEstablished.out, ?_, (Except.ok.inj hs').symm, ?_⟩
  · exact holds_eq_of_isSome rfl (iff_of_false hopen' hopen)
  · rw [Traced.bind_of_ok hconn]
    exact List.append_nil _

theorem steps_connEstablished (h : s.Sound) {p : Nat} {c : SocketConn} (hc : s.conns p = some c)
    (hok : (s.connEstablished p).result = .ok s') : s.Steps (s.connEstablished p).out s' := by
  rcases connEstablished_ok hc hok with ⟨c', out, hholds, rfl, hout⟩
  rw [hout]
  exact steps_of_holds h (closed_map_conn p out) (obtained_map_conn p out) rfl rfl
    (holds_setConn_of_eq hc hholds)

theorem steps_useConn (h : s.Sound) {p : Nat} {c : SocketConn} (hc : s.conns p = some c)
    {a : ConnStep} (hkept : c.use.Closes a → c.use.conn.event = none)
    (hok : (s.useConn p a).result = .ok s') : s.Steps (s.useConn p a).out s' := by
  rw [useConn, object_ok hc, pure_bind] at hok ⊢
  rcases Traced.result_bind hok with ⟨u', hu', hs'⟩
  rcases Except.ok.inj hs' with rfl
  have hevent : u'.conn.event = none ↔ c.use.conn.event = none := by
    rcases (ConnUse.step_ok hu').2 with ⟨hcloses, hopen, -⟩ | ⟨-, hevent⟩
    · exact absurd (hkept hcloses) hopen
    · exact hevent
  rw [Traced.bind_of_ok hu', Traced.out_pure, List.append_nil]
  exact steps_of_holds h (closed_map_conn p _) (obtained_map_conn p _) rfl rfl
    (holds_setConn_of_eq hc (holds_eq_of_isSome rfl hevent))

/-- A connection that is closed drops its descriptor. -/
theorem drops_useConn (h : s.Sound) {p : Nat} {c : SocketConn} (hc : s.conns p = some c)
    {a : ConnStep} (hcloses : c.use.Closes a) (hopen : c.use.conn.event ≠ none)
    (hok : (s.useConn p a).result = .ok s') : Leaked s'.holds s'.opened c.fd := by
  rw [useConn, object_ok hc, pure_bind] at hok
  rcases Traced.result_bind hok with ⟨u', hu', hs'⟩
  rcases Except.ok.inj hs' with rfl
  rcases Option.ne_none_iff_exists'.mp hopen with ⟨ev, hev⟩
  have hclosed : u'.conn.event = none := by
    rcases (ConnUse.step_ok hu').2 with ⟨-, -, hclosed⟩ | ⟨hnot, -⟩
    · exact hclosed
    · exact absurd hcloses hnot
  have hnone : (some { c with use := u' }).bind SocketConn.holds = none := by
    rw [Option.bind_some, SocketConn.holds, hclosed]
    rfl
  rw [holds_setConn, hnone]
  apply h.exact.leaked_drop
  rw [holds, hc, Option.bind_some, SocketConn.holds, hev]
  rfl

/-! ## The connector of a client -/

theorem useConnector_eq {i p : Nat} {named : Bool} {cout : List ConnectorEvent} {connector : Connector}
    {out : List SocketEvent} (h : cout.foldlM (onConnector i p named) s = ⟨out, .ok s'⟩) :
    s.useConnector i p named ⟨cout, .ok connector⟩ = ⟨out, .ok (s'.setConnector i connector)⟩ := by
  rw [useConnector, Traced.handle_ok h, Traced.mk_bind]
  exact congrArg (Traced.mk · _) (List.append_nil out)

theorem clients_setConnector (i : Nat) (c : Connector) (j : Nat) : (s.setConnector i c).clients j =
    if j = i then { s.clients i with connector := c } else s.clients j := Function.update_apply ..

/-- The connector of a client is replaced. -/
theorem Sound.setConnector (h : s.Sound) {i : Nat} {c : Connector} {opened : Finset Int}
    (hnoTimer : c.NoTimer) (hstate : c.state = (s.clients i).connector.state)
    (hidle : c.state = .eDisconnected)
    (hexact : Exact (Function.update s.holds (.connector i) c.event) opened) :
    ({ s with opened := opened }.setConnector i c).Sound := by
  refine ⟨holds_setConnector (s := { s with opened := opened }) i c ▸ hexact, fun j => ?_, fun j => ?_,
    fun j => ?_⟩
  all_goals
    rw [clients_setConnector]
    split
  · exact hnoTimer
  · exact h.noTimer j
  · exact fun _ => hidle
  · exact h.underWay j
  · rename_i heq
    exact fun hconn => hstate.trans (h.done i hconn)
  · exact h.done j

/-- The events of an attempt, as the kernel sees them. -/
theorem steps_startInLoop (h : s.Sound) {i : Nat} {sockfd : Int} (hnew : sockfd ∉ s.opened)
    {err : ConnectErrno} (hkept : (s.clients i).connector.state = .eDisconnected →
      err.Pending ∧ (s.clients i).connector.event = none ∨ err.Retried)
    (hok : (s.step (.startInLoop i sockfd err)).result = .ok s') :
    s.Steps (s.step (.startInLoop i sockfd err)).out s' := by
  rw [step] at hok ⊢
  cases hstate : (s.clients i).connector.state with
  | eConnected =>
      rw [Connector.startInLoop_of_connected hstate] at hok
      cases hok
  | eDisconnected =>
      rw [Connector.startInLoop_eq (h.noTimer i) hstate] at hok ⊢
      rcases hkept hstate with ⟨hpending, hevent⟩ | hretried
      · rw [if_pos hpending, useConnector_eq rfl] at hok ⊢
        rcases Except.ok.inj hok with rfl
        have hconnect : ((s.clients i).connector.connectImpl sockfd).event = some sockfd := by
          rw [Connector.connectImpl, hevent]
        refine ⟨h.setConnector (Connector.noTimer_connectImpl (h.noTimer i) sockfd)
          (Connector.state_connectImpl sockfd) ((Connector.state_connectImpl sockfd).trans hstate) ?_,
          closedOnce_of_quiet rfl ?_⟩
        · rw [hconnect]
          exact h.exact.acquire hevent hnew
        · intro fd hfd
          rw [holds_setConnector, hconnect]
          refine held_update hevent (hfd.imp_left ?_)
          intro hfd
          exact List.mem_singleton.mp hfd
      · have hpending : ¬err.Pending := by
          rcases hretried with rfl | rfl | rfl | rfl <;> decide
        rw [if_neg hpending, if_pos hretried, useConnector_eq rfl] at hok ⊢
        rcases Except.ok.inj hok with rfl
        refine steps_closed h hnew rfl rfl rfl ?_ ?_
        · rw [holds_setConnector]
          exact Function.update_eq_self _ _
        · exact Function.update_eq_self _ _

theorem clients_setClientConn (i p j : Nat) : (s.setClientConn i p).clients j =
    if j = i then { s.clients i with conn := some p } else s.clients j := Function.update_apply ..

theorem holds_setClientConn (i p : Nat) : (s.setClientConn i p).holds = s.holds := by
  funext o
  cases o with
  | conn q => rfl
  | connector j =>
      rw [holds, clients_setClientConn]
      split
      · rename_i heq
        exact heq ▸ rfl
      · rfl

/-- A client that has no connection yet gets one that holds the descriptor. -/
theorem establishConnection_ok {i p : Nat} (hconn : (s.clients i).conn = none) {named : Bool}
    {sockfd : Int} (hok : (s.establishConnection i p named sockfd).result = .ok s') :
    ∃ out : List ConnEvent,
      (s.establishConnection i p named sockfd).out = out.map (SocketEvent.conn p) ∧
      s'.opened = s.opened ∧ s'.clients = (s.setClientConn i p).clients ∧
      s'.holds = Function.update s.holds (.conn p) (some sockfd) := by
  cases named with
  | false => cases hok
  | true =>
      have hnew : ((s.newConnection p sockfd (s.clients i).funcs).clients i).conn = none := hconn
      rw [establishConnection, Traced.require_true rfl, pure_bind] at hok ⊢
      simp only [hnew, pure_bind] at hok ⊢
      have hobject : ((s.newConnection p sockfd (s.clients i).funcs).setClientConn i p).conns p =
          some ⟨sockfd, .start (.new (s.clients i).funcs), false⟩ := Function.update_self ..
      rcases connEstablished_ok hobject hok with ⟨c', out, hholds, rfl, hout⟩
      refine ⟨out, hout, rfl, rfl, ?_⟩
      rw [holds_setConn_of_eq hobject hholds, holds_setClientConn, holds_newConnection]

theorem useConnector_newConn {i p : Nat} {named : Bool} {sockfd : Int} {connector : Connector}
    (hok : (s.useConnector i p named ⟨[.newConnCreateCallback sockfd], .ok connector⟩).result = .ok s') :
    ∃ s₁, (s.establishConnection i p named sockfd).result = .ok s₁ ∧
      s.useConnector i p named ⟨[.newConnCreateCallback sockfd], .ok connector⟩ =
        ⟨.connector i (.newConnCreateCallback sockfd) ::
          (s.establishConnection i p named sockfd).out, .ok (s₁.setConnector i connector)⟩ := by
  have hfold : [ConnectorEvent.newConnCreateCallback sockfd].foldlM (onConnector i p named) s =
      ⟨.connector i (.newConnCreateCallback sockfd) :: (s.establishConnection i p named sockfd).out,
        (s.establishConnection i p named sockfd).result⟩ := by
    rw [List.foldlM_cons]
    exact bind_pure (Traced.emit _ >>= fun _ => s.establishConnection i p named sockfd)
  cases hestablish : (s.establishConnection i p named sockfd).result with
  | ok s₁ =>
      rw [hestablish] at hfold
      exact ⟨s₁, rfl, useConnector_eq hfold⟩
  | error e =>
      rw [hestablish] at hfold
      rcases Traced.result_bind hok with ⟨_, hhandle, _⟩
      rcases Traced.result_bind hhandle with ⟨s₁, hs₁, _⟩
      rw [hfold] at hs₁
      cases hs₁

/-- The connector gives up the descriptor it has. -/
theorem closedOnce_release (h : s.Sound) {i : Nat} {sockfd : Int}
    (howner : s.holds (.connector i) = some sockfd)
    (hholds : s'.holds = Function.update s.holds (.connector i) none) :
    s.ClosedOnce [.connector i (.close sockfd)] s' where
  nodup := List.nodup_singleton sockfd
  mem_iff fd := by
    rw [GivenUp, hholds]
    constructor
    · intro hfd
      obtain rfl : fd = sockfd := List.mem_singleton.mp hfd
      exact ⟨.inr ⟨_, howner⟩, fun o ho => ((h.exact.update_none_iff howner).mp ⟨o, ho⟩).1 rfl⟩
    · rintro ⟨hfd | hfd, hnone⟩
      · cases hfd
      · by_contra hne
        obtain ⟨o, ho⟩ := (h.exact.update_none_iff howner).mpr
          ⟨fun heq => hne (List.mem_singleton.mpr heq), (h.exact.mem_iff fd).mpr hfd⟩
        exact hnone o ho

/-- The attempt of the client `i` has led to the connection at `p`. -/
theorem Sound.connected (h : s.Sound) {i p : Nat} (hexact : Exact s'.holds s'.opened)
    (hclient : ∀ j, s'.clients j = if j = i then
      ⟨{ (s.clients i).connector with state := .eConnected, event := none }, some p, (s.clients i).funcs⟩
        else s.clients j) : s'.Sound := by
  refine ⟨hexact, ?_, ?_, ?_⟩
  · intro j
    rw [hclient]
    split
    · exact h.noTimer i
    · exact h.noTimer j
  · intro j
    rw [hclient]
    split
    · exact fun hne => absurd rfl hne
    · exact h.underWay j
  · intro j
    rw [hclient]
    split
    · exact fun _ => rfl
    · exact h.done j

theorem steps_connectorHandleWrite (h : s.Sound) {i p : Nat}
    (hevent : (s.clients i).connector.event ≠ none) (hfree : s.conns p = none) {err : Nat} {named : Bool}
    (hok : (s.step (.connectorHandleWrite i err p named)).result = .ok s') :
    s.Steps (s.step (.connectorHandleWrite i err p named)).out s' := by
  have hstate := h.underWay i hevent
  have hconn : (s.clients i).conn = none := by
    by_contra hne
    cases hstate.symm.trans (h.done i hne)
  rcases Option.ne_none_iff_exists'.mp hevent with ⟨sockfd, hsockfd⟩
  have howner : s.holds (.connector i) = some sockfd := hsockfd
  rw [step, Connector.handleWrite_eq (h.noTimer i) hsockfd] at hok ⊢
  by_cases herr : err = 0
  · rw [if_pos herr] at hok ⊢
    rcases useConnector_newConn hok with ⟨s₁, hs₁, heq⟩
    rcases establishConnection_ok hconn hs₁ with ⟨out, hout, hopened, hclients, hholds⟩
    rw [heq] at hok ⊢
    rcases Except.ok.inj hok with rfl
    have hfinal : (s₁.setConnector i { (s.clients i).connector with
        state := .eConnected, event := none }).holds =
          Function.update (Function.update s.holds (.connector i) none) (.conn p) (some sockfd) := by
      rw [holds_setConnector, hholds]
      exact Function.update_comm (by simp) ..
    have hclient : ∀ j, (s₁.setConnector i { (s.clients i).connector with
        state := .eConnected, event := none }).clients j =
          if j = i then ⟨{ (s.clients i).connector with state := .eConnected, event := none }, some p,
            (s.clients i).funcs⟩ else s.clients j := by
      intro j
      rw [clients_setConnector, hclients, clients_setClientConn, clients_setClientConn]
      split <;> simp
    have hexact := h.exact.transfer howner (holds_conn_of_free hfree)
    rw [hout]
    refine ⟨h.connected ?_ hclient, closedOnce_of_quiet ?_ ?_⟩
    · rw [hfinal]
      exact (show s₁.opened = s.opened from hopened) ▸ hexact
    · exact closed_map_conn p out
    · intro fd hfd
      rw [hfinal, ← hexact.mem_iff, h.exact.mem_iff]
      apply hfd.resolve_left
      intro hobtained
      rw [List.filterMap_cons_none rfl, obtained_map_conn] at hobtained
      cases hobtained
  · rw [if_neg herr, useConnector_eq rfl] at hok ⊢
    rcases Except.ok.inj hok with rfl
    exact ⟨h.setConnector (h.noTimer i) hstate.symm rfl (h.exact.release howner),
      closedOnce_release h howner (holds_setConnector ..)⟩

/-! ## Runs of a process -/

/-- A step that drops nothing. -/
theorem step_kept (h : s.Sound) {a : SocketStep} (ha : s.Allowed a) (hkept : s.Kept a)
    (hok : (s.step a).result = .ok s') : s.Steps (s.step a).out s' := by
  cases a with
  | acceptorHandleRead connfd p named => exact steps_acceptorHandleRead h ha.1 ha.2 hkept hok
  | connEstablished p =>
      rcases ha with ⟨c, hc, -⟩
      exact steps_connEstablished h hc hok
  | startInLoop i sockfd err => exact steps_startInLoop h ha.2 hkept hok
  | connectorHandleWrite i err p named => exact steps_connectorHandleWrite h ha.1 ha.2 hok
  | conn p a =>
      rcases ha with ⟨c, hc, -⟩
      exact steps_useConn h hc (hkept c hc) hok

/-- `connectImpl` keeps the attempt that is under way, and `connect` passes over the other errors. -/
theorem drops_startInLoop (h : s.Sound) {i : Nat} {sockfd : Int} (hnew : sockfd ∉ s.opened)
    {err : ConnectErrno} (hstate : (s.clients i).connector.state = .eDisconnected)
    (hpending : err.Pending → (s.clients i).connector.event ≠ none) (hretried : ¬err.Retried) :
    ∃ s', (s.step (.startInLoop i sockfd err)).result = .ok s' ∧ Leaked s'.holds s'.opened sockfd := by
  have hleaked : Leaked ({ s with opened := insert sockfd s.opened }.setConnector i
      (s.clients i).connector).holds (insert sockfd s.opened) sockfd := by
    rw [holds_setConnector]
    have hsame : Function.update s.holds (.connector i) (s.clients i).connector.event = s.holds :=
      Function.update_eq_self _ _
    exact hsame.symm ▸ h.exact.leaked_insert hnew
  rw [step, Connector.startInLoop_eq (h.noTimer i) hstate]
  by_cases hp : err.Pending
  · rcases Option.ne_none_iff_exists'.mp (hpending hp) with ⟨fd, hfd⟩
    have hconnect : (s.clients i).connector.connectImpl sockfd = (s.clients i).connector := by
      rw [Connector.connectImpl, hfd]
    rw [if_pos hp, hconnect, useConnector_eq rfl]
    exact ⟨_, rfl, hleaked⟩
  · rw [if_neg hp, if_neg hretried, useConnector_eq rfl]
    exact ⟨_, rfl, hleaked⟩

/-- Any other step drops a descriptor. -/
theorem step_drops (h : s.Sound) {a : SocketStep} (ha : s.Allowed a) (hkept : ¬s.Kept a) :
    ∃ s' fd, (s.step a).result = .ok s' ∧ Leaked s'.holds s'.opened fd := by
  cases a with
  | acceptorHandleRead connfd p named =>
      obtain rfl : connfd = 0 := not_not.mp hkept
      exact ⟨_, 0, rfl, h.exact.leaked_insert ha.1⟩
  | connEstablished p => exact absurd trivial hkept
  | startInLoop i sockfd err =>
      simp only [Kept, not_forall, not_or, not_and] at hkept
      rcases hkept with ⟨hstate, hpending, hretried⟩
      rcases drops_startInLoop h ha.2 hstate hpending hretried with ⟨s', hok, hleaked⟩
      exact ⟨s', sockfd, hok, hleaked⟩
  | connectorHandleWrite i err p named => exact absurd trivial hkept
  | conn p a =>
      simp only [Kept, not_forall] at hkept
      rcases hkept with ⟨c, hc, hcloses, hopen⟩
      rcases ConnUse.step_of_closes hcloses hopen with ⟨u', hstep⟩
      have hu' : (c.use.step a).result = .ok u' := congrArg Traced.result hstep
      have hok : (s.useConn p a).result = .ok (s.setConn p (some { c with use := u' })) := by
        have hmap : (Traced.mapOut (SocketEvent.conn p) (c.use.step a)).result = .ok u' := hu'
        rw [useConn, object_ok hc, pure_bind, Traced.bind_of_ok hmap]
        rfl
      exact ⟨_, c.fd, hok, drops_useConn h hc hcloses hopen hok⟩

theorem sound_start (acceptConnFunc : Bool) (serverFuncs : ConnFuncs) (clientFuncs : Nat → ConnFuncs) :
    (start acceptConnFunc serverFuncs clientFuncs).Sound where
  exact := by
    have hholds : (start acceptConnFunc serverFuncs clientFuncs).holds = fun _ => none := by
      funext o
      cases o <;> rfl
    rw [hholds]
    exact Exact.empty
  noTimer _ := rfl
  underWay _ h := absurd rfl h
  done _ h := absurd rfl h

theorem sound_invariant : (socketMachine.restrict Kept).Invariant Sound :=
  fun _ _ _ h ha hok => (step_kept h ha.1 ha.2 hok).sound

end Process

/-- Every socket is owned, and closed once when it is given up, exactly in the runs in which no socket is
dropped: no connection is closed, `accept` does not return 0, and no attempt is made while another one
is under way or ends with an error that `connect` passes over. -/
theorem noSocketLeaked_iff {acceptConnFunc : Bool} {serverFuncs : ConnFuncs}
    {clientFuncs : Nat → ConnFuncs} {steps : List SocketStep}
    (hlegal : socketMachine.Legal (.start acceptConnFunc serverFuncs clientFuncs) steps) :
    NoSocketLeaked (.start acceptConnFunc serverFuncs clientFuncs) steps ↔
      (socketMachine.restrict Process.Kept).Legal (.start acceptConnFunc serverFuncs clientFuncs)
        steps := by
  have hstart := Process.sound_start acceptConnFunc serverFuncs clientFuncs
  constructor
  · intro h
    apply Machine.legal_restrict_of_forall hlegal
    intro before a s hpre hbefore hs
    by_contra hkept
    have hsound := Process.sound_invariant.run hstart hbefore hs
    obtain ⟨s', fd, hok, hopen, hnone⟩ :=
      Process.step_drops hsound (Machine.allowed_of_isPrefix hlegal hpre hs).2 hkept
    have hs' : (socketMachine.run (.start acceptConnFunc serverFuncs clientFuncs)
        (before ++ [a])).result = .ok s' := by
      rw [Machine.run_append, Traced.bind_of_ok hs, Machine.run_singleton]
      exact hok
    rcases h.1 _ hpre s' hs' fd hopen with ⟨o, ho⟩
    exact hnone o ho
  · intro h
    refine ⟨?_, ?_⟩
    · intro before hpre s hs fd hfd
      rcases hpre with ⟨after, rfl⟩
      have hsound := Process.sound_invariant.run hstart (Machine.legal_append.mp h).1 hs
      exact (hsound.exact.mem_iff fd).mp hfd
    · intro before a hpre s s' hs hok
      rcases Machine.allowed_of_isPrefix h hpre hs with ⟨hbefore, ha, hkept⟩
      exact (Process.step_kept (Process.sound_invariant.run hstart hbefore hs) ha hkept hok).closedOnce

/-- A client is refused once, and then connects. -/
theorem noSocketLeaked_iff_connected :
    NoSocketLeaked (.start true ⟨true, true, true, true⟩ fun _ => ⟨true, true, true, true⟩)
        [.startInLoop 0 3 .ECONNREFUSED, .startInLoop 0 3 .EINPROGRESS, .connectorHandleWrite 0 0 1 true] ↔
      (socketMachine.restrict Process.Kept).Legal
        (.start true ⟨true, true, true, true⟩ fun _ => ⟨true, true, true, true⟩)
        [.startInLoop 0 3 .ECONNREFUSED, .startInLoop 0 3 .EINPROGRESS,
          .connectorHandleWrite 0 0 1 true] := by
  apply noSocketLeaked_iff
  refine Machine.legal_cons ⟨by decide, by decide⟩ rfl ?_
  refine Machine.legal_cons ⟨by decide, by decide⟩ rfl ?_
  exact Machine.legal_cons ⟨nofun, rfl⟩ rfl trivial

/-- A peer connects to the server and closes the connection. -/
def peerCloses : List SocketStep :=
  [.acceptorHandleRead 5 1 true, .connEstablished 1, .conn 1 (.handleRead .eof)]

theorem not_noSocketLeaked_peerCloses :
    socketMachine.Legal (.start true ⟨true, true, true, true⟩ fun _ => ⟨true, true, true, true⟩)
        peerCloses ∧
      ¬NoSocketLeaked (.start true ⟨true, true, true, true⟩ fun _ => ⟨true, true, true, true⟩)
        peerCloses := by
  constructor
  · refine Machine.legal_cons ⟨by decide, rfl⟩ rfl ?_
    refine Machine.legal_cons ⟨_, rfl, rfl⟩ rfl ?_
    exact Machine.legal_cons ⟨_, rfl, rfl, nofun⟩ rfl trivial
  · intro h
    rcases h.1 _ (List.prefix_refl _) _ rfl 5 (Finset.mem_insert_self 5 ∅) with ⟨o, ho⟩
    cases o with
    | connector i => cases ho
    | conn p =>
        by_cases hp : p = 1
        · subst hp
          cases ho
        · have hfree : (Function.update (Function.update (Function.update
              (fun _ => (none : Option SocketConn)) 1 _) 1 _) 1 _ p).bind SocketConn.holds = some 5 := ho
          simp [Function.update_of_ne hp] at hfree

end WebsocketCpp
