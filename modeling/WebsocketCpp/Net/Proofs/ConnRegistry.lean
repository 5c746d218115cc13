import WebsocketCpp.Misc.Heap
import WebsocketCpp.Net.NetServer

/-!
# The ids of connections

`connIndex_` is printed into every id and never counted up (`NetClient` counts its own), so that an id
says where a connection comes from and nothing else. `connRegistry_iff`: the map finds all connections
that have not been removed exactly in the runs in which no two come from the same address and port.
-/

namespace WebsocketCpp

namespace ServerUse

/-- No two connections have the same id, and those that have not been removed are found under
theirs. -/
structure Registered (u : ServerUse) : Prop where
  distinct : ∀ p p' c c', u.conns p = some c → u.conns p' = some c' → c.connId = c'.connId → p = p'
  found : ∀ p c, u.conns p = some c → p ∉ u.removed → u.server.conns.lookup c.connId = some p

/-- The connection that a step removes. -/
def removes (u : ServerUse) : ServerStep → Option Nat
  | .runTask => u.functorList.head?
  | .handleClose conn true => some conn
  | _ => none

/-- The entry that maps to the connection is taken out, and no other. -/
def RemovesOwn (u : ServerUse) (conn : Nat) (u' : ServerUse) : Prop :=
  ∀ id, u'.server.conns.lookup id =
    if u.server.conns.lookup id = some conn then none else u.server.conns.lookup id

/-- A connection that is accepted comes from where none has come from before. -/
def NewPeer (u : ServerUse) : ServerStep → Prop
  | .newConnAccept _ clientAddr => ∀ p c, u.conns p = some c → c.remoteAddr ≠ clientAddr
  | _ => True

end ServerUse

/-- The map is right in every state of a run, and every removal takes out its own entry. -/
def RegistryHolds (steps : List ServerStep) : Prop :=
  ∀ before, before <+: steps → ∀ u, (serverMachine.run .start before).result = .ok u →
    u.Registered ∧ ∀ a, before ++ [a] <+: steps → ∀ conn ∈ u.removes a,
      ∀ u', (u.step a).result = .ok u' → u.RemovesOwn conn u'

/-! ## What an id says -/

/-- The bytes are swapped back by swapping them again. -/
theorem network2Host16_network2Host16 (net16 : BitVec 16) :
    network2Host16 (network2Host16 net16) = net16 := by
  ext i hi
  simp only [network2Host16, BitVec.getElem_rotateLeft]
  split
  · split
    · omega
    · congr 1
      omega
  · split
    · congr 1
      omega
    · omega

theorem network2Host16_injective : Function.Injective network2Host16 :=
  Function.LeftInverse.injective network2Host16_network2Host16

theorem length_decimal_byte_le (b : BitVec 8) : (decimal b.toNat).length ≤ 3 :=
  length_decimal_le (by decide) (Nat.lt_trans b.isLt (by decide))

theorem length_toIp_le (addr : SockaddrIn) : (toIp addr).length ≤ 15 := by
  have h1 := length_decimal_byte_le addr.sinAddr.b1
  have h2 := length_decimal_byte_le addr.sinAddr.b2
  have h3 := length_decimal_byte_le addr.sinAddr.b3
  have h4 := length_decimal_byte_le addr.sinAddr.b4
  simp only [toIp, List.length_append, List.length_cons]
  omega

theorem notMem_toIp (addr : SockaddrIn) : '#' ∉ toIp addr := by
  have hdecimal (n : Nat) : '#' ∉ decimal n := notMem_decimal (by decide) n
  simp [toIp, hdecimal]

theorem toIp_inj {addr addr' : SockaddrIn} (h : toIp addr = toIp addr') :
    addr.sinAddr = addr'.sinAddr := by
  have hdot (n : Nat) : '.' ∉ decimal n := notMem_decimal (by decide) n
  have hbyte {b b' : BitVec 8} (heq : decimal b.toNat = decimal b'.toNat) : b = b' :=
    BitVec.eq_of_toNat_eq (decimal_injective heq)
  rcases addr with ⟨⟨b1, b2, b3, b4⟩, port⟩
  rcases addr' with ⟨⟨b1', b2', b3', b4'⟩, port'⟩
  rcases append_separator_inj (hdot _) (hdot _) h with ⟨h1, h⟩
  rcases append_separator_inj (hdot _) (hdot _) h with ⟨h2, h⟩
  rcases append_separator_inj (hdot _) (hdot _) h with ⟨h3, h4⟩
  rcases hbyte h1 with rfl
  rcases hbyte h2 with rfl
  rcases hbyte h3 with rfl
  rcases hbyte h4 with rfl
  rfl

namespace NetServer

/-- The id of a connection from the address. -/
def peerId (addr : SockaddrIn) : List Char := printId (toIp addr) (network2Host16 addr.sinPort) 0

/-- The buffer is large enough for an id. -/
theorem printId_eq (addr : SockaddrIn) (port : BitVec 16) :
    printId (toIp addr) port 0 = toIp addr ++ '#' :: (decimal port.toNat ++ '#' :: decimal 0) := by
  have hip := length_toIp_le addr
  have hport : (decimal port.toNat).length ≤ 5 :=
    length_decimal_le (by decide) (Nat.lt_trans port.isLt (by decide))
  have hindex : (decimal 0).length ≤ 1 := length_decimal_le (by decide) (by decide)
  apply List.take_of_length_le
  simp only [csmax, List.length_append, List.length_cons]
  omega

theorem peerId_injective : Function.Injective peerId := by
  intro addr addr' h
  rw [peerId, peerId, printId_eq, printId_eq] at h
  rcases append_separator_inj (notMem_toIp _) (notMem_toIp _) h with ⟨hip, h⟩
  have hdecimal (n : Nat) : '#' ∉ decimal n := notMem_decimal (by decide) n
  rcases append_separator_inj (hdecimal _) (hdecimal _) h with ⟨hport, -⟩
  have hip := toIp_inj hip
  have hport := network2Host16_injective (BitVec.eq_of_toNat_eq (decimal_injective hport))
  rcases addr with ⟨sinAddr, sinPort⟩
  rcases addr' with ⟨sinAddr', sinPort'⟩
  obtain rfl : sinAddr = sinAddr' := hip
  obtain rfl : sinPort = sinPort' := hport
  rfl

end NetServer

namespace ServerUse

variable {u u' : ServerUse}

/-! ## The invariant -/

/-- What holds of every run. -/
structure Sound (u : ServerUse) : Prop where
  connIndex : u.server.connIndex = 0
  nonnull : u.conns 0 = none
  ids : ∀ p c, u.conns p = some c → c.connId = NetServer.peerId c.remoteAddr
  entries : ∀ id p, u.server.conns.lookup id = some p → p = 0 ∨ ∃ c, u.conns p = some c ∧ c.connId = id
  queued : ∀ p ∈ u.functorList, p ∉ u.removed ∧ ∃ c, u.conns p = some c ∧ c.event = false
  nodup : u.functorList.Nodup
  removed : ∀ p ∈ u.removed, ∃ c, u.conns p = some c ∧ c.event = false

/-- What holds as well if connections come from different addresses. -/
structure Distinct (u : ServerUse) : Prop where
  peers : ∀ p p' c c', u.conns p = some c → u.conns p' = some c' → c.remoteAddr = c'.remoteAddr →
    p = p'
  found : ∀ p c, u.conns p = some c → p ∉ u.removed → u.server.conns.lookup c.connId = some p

theorem Distinct.registered (h : u.Distinct) (hsound : u.Sound) : u.Registered := by
  refine ⟨?_, h.found⟩
  intro p p' c c' hc hc' hid
  rw [hsound.ids p c hc, hsound.ids p' c' hc'] at hid
  exact h.peers p p' c c' hc hc' (NetServer.peerId_injective hid)

theorem object_eq {p : Nat} {c : ServerConn} (h : u.conns p = some c) : u.object p = pure c := by
  rw [object, h]

/-- The state after a connection has been accepted. -/
def accepted (u : ServerUse) (p : Nat) (addr : SockaddrIn) : ServerUse :=
  { u with
    server := { u.server with conns := u.server.conns.insert (NetServer.peerId addr) p }
    conns := Function.update u.conns p (some ⟨NetServer.peerId addr, addr, true⟩) }

theorem step_newConnAccept (h : u.Sound) (p : Nat) (addr : SockaddrIn) :
    u.step (.newConnAccept p addr) = pure (u.accepted p addr) := by
  simp only [step, NetServer.newConnAccept, accepted, NetServer.peerId, h.connIndex]

theorem conns_accepted {p p' : Nat} {addr : SockaddrIn} {c : ServerConn} :
    (u.accepted p addr).conns p' = some c ↔
      p' = p ∧ c = ⟨NetServer.peerId addr, addr, true⟩ ∨ p' ≠ p ∧ u.conns p' = some c :=
  Heap.update_some_iff

theorem lookup_accepted (u : ServerUse) (p : Nat) (addr : SockaddrIn) (id : List Char) :
    (u.accepted p addr).server.conns.lookup id =
      if id = NetServer.peerId addr then some p else u.server.conns.lookup id := by
  by_cases heq : id = NetServer.peerId addr
  · rw [if_pos heq, heq]
    exact AList.lookup_insert _
  · rw [if_neg heq]
    exact AList.lookup_insert_ne heq

/-- The state after a connection has been taken out of the map. -/
def erased (u : ServerUse) (p : Nat) (c : ServerConn) : ServerUse :=
  { u with server := u.server.removeConnInLoop c, removed := p :: u.removed }

theorem removeConnInLoop_eq {p : Nat} {c : ServerConn} (h : u.conns p = some c) :
    u.removeConnInLoop p = pure (u.erased p c) := by
  rw [removeConnInLoop, object_eq h, pure_bind]
  rfl

theorem lookup_erased (u : ServerUse) (p : Nat) (c : ServerConn) (id : List Char) :
    (u.erased p c).server.conns.lookup id =
      if id = c.connId then none else u.server.conns.lookup id := by
  by_cases heq : id = c.connId
  · rw [if_pos heq, heq]
    exact AList.lookup_erase ..
  · rw [if_neg heq]
    exact AList.lookup_erase_ne heq

/-- The state after `event_` has been deleted. -/
def closed (u : ServerUse) (p : Nat) (c : ServerConn) : ServerUse :=
  { u with conns := Function.update u.conns p (some { c with event := false }) }

theorem step_handleClose {p : Nat} {c : ServerConn} (h : u.conns p = some c) (isInLoopThread : Bool) :
    u.step (.handleClose p isInLoopThread) =
      if isInLoopThread then pure ((u.closed p c).erased p { c with event := false })
      else pure { u.closed p c with functorList := u.functorList ++ [p] } := by
  rw [step, object_eq h, pure_bind, removeConn]
  split
  · rw [removeConnInLoop_eq h, pure_bind]
    rfl
  · rfl

/-! ## Every step keeps the invariant -/

theorem Sound.accepted (h : u.Sound) {p : Nat} (hp : p ≠ 0) (hfree : u.conns p = none)
    (addr : SockaddrIn) : (u.accepted p addr).Sound where
  connIndex := h.connIndex
  nonnull := (Function.update_of_ne hp.symm ..).trans h.nonnull
  ids p' c hc := by
    rcases conns_accepted.mp hc with ⟨-, rfl⟩ | ⟨-, hc⟩
    · rfl
    · exact h.ids p' c hc
  entries id p' hid := by
    rw [lookup_accepted] at hid
    split at hid
    · rename_i hnew
      rcases Option.some.inj hid with rfl
      exact .inr ⟨_, conns_accepted.mpr (.inl ⟨rfl, rfl⟩), hnew.symm⟩
    · rcases h.entries id p' hid with hnull | ⟨c, hc, hcid⟩
      · exact .inl hnull
      · exact .inr ⟨c, Heap.update_of_free hfree hc _, hcid⟩
  queued p' hp' := by
    rcases h.queued p' hp' with ⟨hnot, c, hc, hevent⟩
    exact ⟨hnot, c, Heap.update_of_free hfree hc _, hevent⟩
  nodup := h.nodup
  removed p' hp' := by
    rcases h.removed p' hp' with ⟨c, hc, hevent⟩
    exact ⟨c, Heap.update_of_free hfree hc _, hevent⟩

/-- A connection that closes keeps its id and its address. -/
theorem conns_closed {p p' : Nat} {c c' : ServerConn} (h : u.conns p = some c)
    (hc' : (u.closed p c).conns p' = some c') :
    ∃ c'', u.conns p' = some c'' ∧ c''.connId = c'.connId ∧ c''.remoteAddr = c'.remoteAddr := by
  rcases Heap.update_some_iff.mp hc' with ⟨rfl, rfl⟩ | ⟨-, hc'⟩
  · exact ⟨c, h, rfl, rfl⟩
  · exact ⟨c', hc', rfl, rfl⟩

theorem exists_conns_closed {p p' : Nat} {c c' : ServerConn} (h : u.conns p = some c)
    (hc' : u.conns p' = some c') : ∃ c'', (u.closed p c).conns p' = some c'' ∧
      c''.connId = c'.connId ∧ (p' = p ∨ c'.event = false → c''.event = false) := by
  by_cases heq : p' = p
  · subst heq
    rw [h] at hc'
    rcases Option.some.inj hc' with rfl
    exact ⟨_, Function.update_self .., rfl, fun _ => rfl⟩
  · exact ⟨c', (Function.update_of_ne heq ..).trans hc', rfl, fun h => h.resolve_left heq⟩

theorem Sound.closed (h : u.Sound) {p : Nat} {c : ServerConn} (hc : u.conns p = some c) :
    (u.closed p c).Sound where
  connIndex := h.connIndex
  nonnull := by
    refine (Function.update_of_ne ?_ ..).trans h.nonnull
    rintro rfl
    rw [h.nonnull] at hc
    cases hc
  ids p' c' hc' := by
    rcases conns_closed hc hc' with ⟨c'', hc'', hid, hpeer⟩
    rw [← hid, ← hpeer]
    exact h.ids p' c'' hc''
  entries id p' hid := by
    rcases h.entries id p' hid with hnull | ⟨c', hc', hcid⟩
    · exact .inl hnull
    · rcases exists_conns_closed hc hc' with ⟨c'', hc'', hid', -⟩
      exact .inr ⟨c'', hc'', hid'.trans hcid⟩
  queued p' hp' := by
    rcases h.queued p' hp' with ⟨hnot, c', hc', hevent⟩
    rcases exists_conns_closed hc hc' with ⟨c'', hc'', -, hevent'⟩
    exact ⟨hnot, c'', hc'', hevent' (.inr hevent)⟩
  nodup := h.nodup
  removed p' hp' := by
    rcases h.removed p' hp' with ⟨c', hc', hevent⟩
    rcases exists_conns_closed hc hc' with ⟨c'', hc'', -, hevent'⟩
    exact ⟨c'', hc'', hevent' (.inr hevent)⟩

theorem Sound.erased (h : u.Sound) {p : Nat} {c : ServerConn} (hc : u.conns p = some c)
    (hevent : c.event = false) (hp : p ∉ u.functorList) : (u.erased p c).Sound where
  connIndex := h.connIndex
  nonnull := h.nonnull
  ids := h.ids
  entries id p' hid := by
    rw [lookup_erased] at hid
    split at hid
    · cases hid
    · exact h.entries id p' hid
  queued p' hp' := by
    rcases h.queued p' hp' with ⟨hnot, hconn⟩
    refine ⟨?_, hconn⟩
    intro hmem
    rcases List.mem_cons.mp hmem with rfl | hmem
    · exact hp hp'
    · exact hnot hmem
  nodup := h.nodup
  removed p' hp' := by
    rcases List.mem_cons.mp hp' with rfl | hp'
    · exact ⟨c, hc, hevent⟩
    · exact h.removed p' hp'

theorem Sound.enqueued (h : u.Sound) {p : Nat} {c : ServerConn} (hc : u.conns p = some c)
    (hevent : c.event = false) (hp : p ∉ u.functorList) (hnot : p ∉ u.removed) :
    { u with functorList := u.functorList ++ [p] }.Sound where
  connIndex := h.connIndex
  nonnull := h.nonnull
  ids := h.ids
  entries := h.entries
  queued p' hp' := by
    rcases List.mem_append.mp hp' with hp' | hp'
    · exact h.queued p' hp'
    · rw [List.mem_singleton.mp hp']
      exact ⟨hnot, c, hc, hevent⟩
  nodup := List.nodup_append'.mpr ⟨h.nodup, List.nodup_singleton p, by simpa using hp⟩
  removed := h.removed

theorem Sound.dequeued (h : u.Sound) {p : Nat} {functorList : List Nat}
    (htasks : u.functorList = p :: functorList) : { u with functorList := functorList }.Sound where
  connIndex := h.connIndex
  nonnull := h.nonnull
  ids := h.ids
  entries := h.entries
  queued p' hp' := h.queued p' (htasks ▸ List.mem_cons_of_mem _ hp')
  nodup := (htasks ▸ h.nodup).of_cons
  removed := h.removed

theorem lookup_getconn (u : ServerUse) (connid id : List Char) :
    (u.server.getconn connid).1.conns.lookup id = u.server.conns.lookup id ∨
      u.server.conns.lookup id = none ∧ (u.server.getconn connid).1.conns.lookup id = some 0 := by
  rw [NetServer.getconn]
  split
  · exact .inl rfl
  · cases hlookup : u.server.conns.lookup connid with
    | some conn => exact .inl rfl
    | none =>
        by_cases heq : id = connid
        · subst heq
          exact .inr ⟨hlookup, AList.lookup_insert _⟩
        · exact .inl (AList.lookup_insert_ne heq)

theorem Sound.getconn (h : u.Sound) (connid : List Char) :
    { u with server := (u.server.getconn connid).1 }.Sound where
  connIndex := by
    rw [← h.connIndex, NetServer.getconn]
    split
    · rfl
    · split <;> rfl
  nonnull := h.nonnull
  ids := h.ids
  entries id p' hid := by
    rcases lookup_getconn u connid id with hsame | ⟨-, hnull⟩
    · exact h.entries id p' (hsame.symm.trans hid)
    · exact .inl (Option.some.inj (hid.symm.trans hnull))
  queued := h.queued
  nodup := h.nodup
  removed := h.removed

/-! ## Connections from different addresses -/

theorem Distinct.accepted (h : u.Distinct) (hsound : u.Sound) {p : Nat} {addr : SockaddrIn}
    (hnew : ∀ p c, u.conns p = some c → c.remoteAddr ≠ addr) : (u.accepted p addr).Distinct where
  peers p₁ p₂ c₁ c₂ hc₁ hc₂ heq := by
    rcases conns_accepted.mp hc₁ with ⟨rfl, rfl⟩ | ⟨-, hold₁⟩
    · rcases conns_accepted.mp hc₂ with ⟨rfl, -⟩ | ⟨-, hold₂⟩
      · rfl
      · exact absurd heq.symm (hnew p₂ c₂ hold₂)
    · rcases conns_accepted.mp hc₂ with ⟨rfl, rfl⟩ | ⟨-, hold₂⟩
      · exact absurd heq (hnew p₁ c₁ hold₁)
      · exact h.peers p₁ p₂ c₁ c₂ hold₁ hold₂ heq
  found p' c hc hnot := by
    rw [lookup_accepted]
    rcases conns_accepted.mp hc with ⟨rfl, rfl⟩ | ⟨-, hc⟩
    · exact if_pos rfl
    · rw [if_neg, h.found p' c hc hnot]
      rw [hsound.ids p' c hc]
      exact fun heq => hnew p' c hc (NetServer.peerId_injective heq)

theorem Distinct.closed (h : u.Distinct) {p : Nat} {c : ServerConn} (hc : u.conns p = some c) :
    (u.closed p c).Distinct where
  peers p₁ p₂ c₁ c₂ hc₁ hc₂ heq := by
    rcases conns_closed hc hc₁ with ⟨c₁', hc₁', -, hpeer₁⟩
    rcases conns_closed hc hc₂ with ⟨c₂', hc₂', -, hpeer₂⟩
    exact h.peers p₁ p₂ c₁' c₂' hc₁' hc₂' (by rw [hpeer₁, hpeer₂, heq])
  found p' c' hc' hnot := by
    rcases conns_closed hc hc' with ⟨c'', hc'', hid, -⟩
    rw [← hid]
    exact h.found p' c'' hc'' hnot

/-- An entry maps to a connection that has not been removed exactly if it is under the id of the
connection. -/
theorem Distinct.lookup_iff (h : u.Distinct) (hsound : u.Sound) {p : Nat} {c : ServerConn}
    (hc : u.conns p = some c) (hnot : p ∉ u.removed) (id : List Char) :
    u.server.conns.lookup id = some p ↔ id = c.connId := by
  constructor
  · intro hid
    rcases hsound.entries id p hid with rfl | ⟨c', hc', rfl⟩
    · rw [hsound.nonnull] at hc
      cases hc
    · rw [hc] at hc'
      rw [Option.some.inj hc']
  · rintro rfl
    exact h.found p c hc hnot

theorem Distinct.erased (h : u.Distinct) (hsound : u.Sound) {p : Nat} {c : ServerConn}
    (hc : u.conns p = some c) : (u.erased p c).Distinct where
  peers := h.peers
  found p' c' hc' hnot := by
    rcases List.ne_and_not_mem_of_not_mem_cons hnot with ⟨hne, hnot⟩
    rw [lookup_erased, if_neg, h.found p' c' hc' hnot]
    intro heq
    exact hne ((h.registered hsound).distinct p' p c' c hc' hc heq)

theorem Distinct.removesOwn (h : u.Distinct) (hsound : u.Sound) {p : Nat} {c : ServerConn}
    (hc : u.conns p = some c) (hnot : p ∉ u.removed) : u.RemovesOwn p (u.erased p c) := by
  intro id
  rw [lookup_erased]
  exact if_congr (h.lookup_iff hsound hc hnot id).symm rfl rfl

/-! ## Runs -/

/-- What a step does. -/
structure Steps (u : ServerUse) (a : ServerStep) (u' : ServerUse) : Prop where
  sound : u'.Sound
  distinct : u.Distinct → u.NewPeer a → u'.Distinct
  removesOwn : u.Distinct → ∀ p ∈ u.removes a, u.RemovesOwn p u'

/-- A connection is closed that has its `event_`, and so has not been closed before. -/
theorem steps_handleClose (h : u.Sound) {p : Nat} {c : ServerConn} (hc : u.conns p = some c)
    (hevent : c.event = true) (isInLoopThread : Bool) :
    ∃ u', u.step (.handleClose p isInLoopThread) = pure u' ∧
      u.Steps (.handleClose p isInLoopThread) u' := by
  have hopen : ∀ c', u.conns p = some c' → c'.event ≠ false := by
    intro c' hc' hfalse
    rw [hc] at hc'
    rw [← Option.some.inj hc', hevent] at hfalse
    cases hfalse
  have hp : p ∉ u.functorList := by
    intro hmem
    rcases h.queued p hmem with ⟨-, c', hc', hfalse⟩
    exact hopen c' hc' hfalse
  have hnot : p ∉ u.removed := by
    intro hmem
    rcases h.removed p hmem with ⟨c', hc', hfalse⟩
    exact hopen c' hc' hfalse
  have hc' : (u.closed p c).conns p = some { c with event := false } := Function.update_self ..
  rw [step_handleClose hc]
  cases isInLoopThread with
  | true =>
      refine ⟨_, rfl, (h.closed hc).erased hc' rfl hp,
        fun hd _ => (hd.closed hc).erased (h.closed hc) hc', ?_⟩
      intro hd p' hp'
      rcases Option.some.inj hp' with rfl
      exact (hd.closed hc).removesOwn (h.closed hc) hc' hnot
  | false =>
      refine ⟨_, rfl, (h.closed hc).enqueued hc' rfl hp hnot, ?_, nofun⟩
      intro hd _
      have hclosed := hd.closed hc
      exact ⟨hclosed.peers, hclosed.found⟩

/-- The first task removes a connection that nobody has removed. -/
theorem steps_runTask (h : u.Sound) {p : Nat} {functorList : List Nat}
    (htasks : u.functorList = p :: functorList) :
    ∃ u', u.step .runTask = pure u' ∧ u.Steps .runTask u' := by
  rcases h.queued p (htasks ▸ List.mem_cons_self ..) with ⟨hnot, c, hc, hevent⟩
  have hrest := h.dequeued htasks
  have hp : p ∉ functorList := (List.nodup_cons.mp (htasks ▸ h.nodup)).1
  have hdist (hd : u.Distinct) : { u with functorList := functorList }.Distinct := ⟨hd.peers, hd.found⟩
  refine ⟨{ u with functorList := functorList }.erased p c, ?_, hrest.erased hc hevent hp,
    fun hd _ => (hdist hd).erased hrest hc, ?_⟩
  · rw [step, htasks]
    exact removeConnInLoop_eq (u := { u with functorList := functorList }) hc
  · intro hd p' hp'
    rw [removes, htasks] at hp'
    rcases Option.some.inj hp' with rfl
    exact (hdist hd).removesOwn hrest hc hnot

theorem step_spec (h : u.Sound) {a : ServerStep} (ha : u.Allowed a) :
    ∃ u', u.step a = pure u' ∧ u.Steps a u' := by
  cases a with
  | newConnAccept p addr =>
      rcases ha with ⟨hp, hfree⟩
      exact ⟨_, step_newConnAccept h p addr, h.accepted hp hfree addr,
        fun hd hnew => hd.accepted h hnew, nofun⟩
  | handleClose p isInLoopThread =>
      rcases ha with ⟨c, hc, hevent⟩
      exact steps_handleClose h hc hevent isInLoopThread
  | runTask =>
      cases htasks : u.functorList with
      | nil => exact absurd htasks ha
      | cons p functorList => exact steps_runTask h htasks
  | getconn connid =>
      refine ⟨_, rfl, h.getconn connid, fun hd _ => ⟨hd.peers, ?_⟩, nofun⟩
      intro p c hc hnot
      have hfound := hd.found p c hc hnot
      rcases lookup_getconn u connid c.connId with hsame | ⟨hnone, -⟩
      · exact hsame.trans hfound
      · rw [hnone] at hfound
        cases hfound

theorem sound_start : start.Sound where
  connIndex := rfl
  nonnull := rfl
  ids := nofun
  entries := nofun
  queued := nofun
  nodup := .nil
  removed := nofun

theorem distinct_start : start.Distinct := ⟨nofun, nofun⟩

theorem sound_invariant : serverMachine.Invariant Sound := by
  intro u a u' h ha hok
  rcases step_spec h ha with ⟨u'', hstep, hsteps⟩
  rw [show serverMachine.step u a = _ from hstep] at hok
  exact Except.ok.inj hok ▸ hsteps.sound

theorem distinct_invariant :
    (serverMachine.restrict NewPeer).Invariant fun u => u.Sound ∧ u.Distinct := by
  intro u a u' ⟨h, hd⟩ ⟨ha, hnew⟩ hok
  rcases step_spec h ha with ⟨u'', hstep, hsteps⟩
  rw [show (serverMachine.restrict NewPeer).step u a = _ from hstep] at hok
  exact Except.ok.inj hok ▸ ⟨hsteps.sound, hsteps.distinct hd hnew⟩

end ServerUse

/-- The map is right in every state exactly in the runs in which every connection comes from another
address or port than all before it. -/
theorem connRegistry_iff {steps : List ServerStep} (hlegal : serverMachine.Legal .start steps) :
    RegistryHolds steps ↔ (serverMachine.restrict ServerUse.NewPeer).Legal .start steps := by
  constructor
  · intro h
    refine Machine.legal_restrict_iff.mpr ⟨hlegal, ?_⟩
    intro before a hpre u hu
    rcases Machine.allowed_of_isPrefix hlegal hpre hu with ⟨hbefore, ha⟩
    have hsound := ServerUse.sound_invariant.run ServerUse.sound_start hbefore hu
    cases a with
    | newConnAccept p addr =>
        intro p' c hc hpeer
        -- the two would have one id
        have hu' : (serverMachine.run .start (before ++ [.newConnAccept p addr])).result =
            .ok (u.accepted p addr) := by
          rw [Machine.run_append, Traced.bind_of_ok hu, Machine.run_singleton]
          exact congrArg Traced.result (ServerUse.step_newConnAccept hsound p addr)
        have hid : c.connId = NetServer.peerId addr := by rw [hsound.ids p' c hc, hpeer]
        have hsame := (h _ hpre _ hu').1.distinct p' p c _ (Heap.update_of_free ha.2 hc _)
          (Function.update_self ..) hid
        have hfree : u.conns p = none := ha.2
        rw [← hsame, hc] at hfree
        cases hfree
    | handleClose | runTask | getconn => trivial
  · intro h before hpre u hu
    rcases hpre with ⟨after, rfl⟩
    have hinv : u.Sound ∧ u.Distinct := ServerUse.distinct_invariant.run
      ⟨ServerUse.sound_start, ServerUse.distinct_start⟩ (Machine.legal_append.mp h).1 hu
    refine ⟨hinv.2.registered hinv.1, ?_⟩
    intro a hpre' conn hconn u' hu'
    obtain ⟨u'', hstep, hsteps⟩ := ServerUse.step_spec hinv.1
      (Machine.allowed_of_isPrefix hlegal hpre' hu).2
    rw [hstep] at hu'
    exact Except.ok.inj hu' ▸ hsteps.removesOwn hinv.2 conn hconn

/-- 10.0.0.7, port 40000. -/
def reconnecting : SockaddrIn := ⟨⟨10, 0, 0, 7⟩, 0x409C⟩

/-- A peer connects, goes away, and connects again from the same port before its first connection is
removed. -/
def reconnectRun : List ServerStep :=
  [.newConnAccept 1 reconnecting, .handleClose 1 false, .newConnAccept 2 reconnecting, .runTask]

theorem not_registryHolds_reconnect :
    serverMachine.Legal .start reconnectRun ∧ ¬RegistryHolds reconnectRun ∧
      ∃ u, (serverMachine.run .start reconnectRun).result = .ok u ∧ 2 ∉ u.removed ∧
        ∃ c, u.conns 2 = some c ∧ u.server.conns.lookup c.connId = none := by
  refine ⟨?_, fun h => ?_, _, rfl, by decide, _, rfl, by decide⟩
  · refine Machine.legal_cons ⟨by decide, rfl⟩ rfl ?_
    refine Machine.legal_cons ⟨_, rfl, rfl⟩ rfl ?_
    refine Machine.legal_cons ⟨by decide, rfl⟩ rfl ?_
    exact Machine.legal_cons nofun rfl trivial
  · have hsame := (h _ (List.prefix_refl _) _ rfl).1.distinct 1 2 _ _ rfl rfl rfl
    cases hsame

/-- Two peers. -/
theorem connRegistry_iff_twoPeers :
    RegistryHolds [.newConnAccept 1 ⟨⟨10, 0, 0, 7⟩, 1⟩, .newConnAccept 2 ⟨⟨10, 0, 0, 8⟩, 1⟩,
        .handleClose 1 false, .runTask] ↔
      (serverMachine.restrict ServerUse.NewPeer).Legal .start
        [.newConnAccept 1 ⟨⟨10, 0, 0, 7⟩, 1⟩, .newConnAccept 2 ⟨⟨10, 0, 0, 8⟩, 1⟩,
          .handleClose 1 false, .runTask] := by
  apply connRegistry_iff
  refine Machine.legal_cons ⟨by decide, rfl⟩ rfl ?_
  refine Machine.legal_cons ⟨by decide, rfl⟩ rfl ?_
  refine Machine.legal_cons ⟨_, rfl, rfl⟩ rfl ?_
  exact Machine.legal_cons nofun rfl trivial

end WebsocketCpp
