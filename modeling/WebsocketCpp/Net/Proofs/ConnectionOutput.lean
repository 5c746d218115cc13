import WebsocketCpp.Net.Proofs.ConnectionRefines
import WebsocketCpp.Net.Proofs.SendPath

/-!
# What goes out over a connection

Every function of a connection leaves the bytes that go out as they are, whatever callbacks its handler
has; only `sendInReactor` adds its data to them, all of it or nothing (`adds_sendInReactor`). None of them
opens a connection that is not connected.
-/

namespace WebsocketCpp

/-- The bytes that the kernel has taken. -/
def ConnEvent.taken : ConnEvent → List UInt8
  | .send (.accepted bytes) => bytes
  | _ => []

def takenBytes (events : List ConnEvent) : List UInt8 := events.flatMap ConnEvent.taken

theorem takenBytes_append (es es' : List ConnEvent) :
    takenBytes (es ++ es') = takenBytes es ++ takenBytes es' := List.flatMap_append

theorem takenBytes_map_send (es : List SendEvent) :
    takenBytes (es.map .send) = NetConnection.acceptedBytes es := by
  rw [takenBytes, List.flatMap_map, NetConnection.acceptedBytes]
  congr 1
  funext e
  cases e <;> rfl

/-- `sendInReactor` on a connection that is closed or has something in its buffer, or whose `write` is
refused. -/
theorem NetConnection.sendInReactor_untaken {c : NetConnection} (data : List UInt8) {answer : WriteAnswer}
    (h : ¬(c.state ≠ .eDisconnected ∧ c.writeBuffer = [] ∧ ∃ n, answer = .count n)) :
    c.sendInReactor data answer = pure c := by
  by_cases hstate : c.state = .eDisconnected
  · rw [sendInReactor, if_pos hstate]
  · apply sendInReactor_dropped
    by_contra hnone
    rw [not_or, not_not] at hnone
    cases answer with
    | count n => exact h ⟨hstate, hnone.1, n, rfl⟩
    | failed errno => exact hnone.2 ⟨errno, rfl⟩

namespace Connection

variable {c : Connection} {data : List UInt8}

/-- What goes out and what stays in the buffer is what was in the buffer and `data`, and the connection is
connected only if it was. -/
def Adds (c : Connection) (data : List UInt8) (x : Conn Connection) : Prop :=
  ∀ c', x.result = .ok c' → takenBytes x.out ++ c'.writeBuffer = c.writeBuffer ++ data ∧
    (c'.state = .eConnected → c.state = .eConnected)

/-- `sendInReactor` finds the connection open and nothing in the buffer, and the kernel takes some of the
bytes. -/
def Takes (c : Connection) (answer : WriteAnswer) : Prop :=
  c.state ≠ .eDisconnected ∧ c.writeBuffer = [] ∧ ∃ n, answer = .count n

theorem adds_pure {c' : Connection} (h : c'.writeBuffer = c.writeBuffer)
    (hstate : c'.state = c.state ∨ c'.state = .eDisconnected) : c.Adds [] (pure c') := by
  intro c'' hc''
  rcases Except.ok.inj hc''
  rw [h]
  refine ⟨(List.append_nil _).symm, fun hconn => ?_⟩
  rcases hstate with hsame | hclosed
  · rw [← hsame, hconn]
  · rw [hclosed] at hconn
    cases hconn

theorem adds_fail (e : ObjectFault) : c.Adds data (Traced.fail e) := by
  intro c' hc'
  cases hc'

theorem adds_bind {x : Conn Connection} {f : Connection → Conn Connection} (hx : c.Adds [] x)
    (hf : ∀ c' : Connection, c'.Adds data (f c')) : c.Adds data (x >>= f) := by
  intro c'' hc''
  rcases Traced.result_bind hc'' with ⟨c', hc', hrest⟩
  rcases hx c' hc' with ⟨hfirst, hstate⟩
  rcases hf c' c'' hrest with ⟨hsecond, hstate'⟩
  rw [List.append_nil] at hfirst
  rw [Traced.bind_of_ok hc']
  refine ⟨?_, fun hconn => hstate (hstate' hconn)⟩
  change takenBytes (x.out ++ (f c').out) ++ c''.writeBuffer = c.writeBuffer ++ data
  rw [takenBytes_append, List.append_assoc, hsecond, ← List.append_assoc, hfirst]

theorem adds_require {p : Prop} [Decidable p] {e : ObjectFault} {f : Unit → Conn Connection}
    (hf : c.Adds data (f ())) : c.Adds data (Traced.require p e >>= f) := by
  by_cases hp : p
  · rwa [Traced.require_true hp, pure_bind]
  · rw [Traced.require_false hp, Traced.fail_bind]
    exact adds_fail e

theorem adds_emit {e : ConnEvent} (he : e.taken = []) {f : Unit → Conn Connection}
    (hf : c.Adds data (f ())) : c.Adds data (Traced.emit e >>= f) := by
  intro c' hc'
  rcases hf c' hc' with ⟨hrest, hstate⟩
  refine ⟨?_, hstate⟩
  rwa [Traced.emit_bind, takenBytes, List.flatMap_cons, he, List.nil_append]

theorem adds_when {p : Prop} [Decidable p] {e : ConnEvent} (he : e.taken = [])
    {f : Unit → Conn Connection} (hf : c.Adds data (f ())) :
    c.Adds data (if p then Traced.emit e >>= f else f ()) := by
  split
  · exact adds_emit he hf
  · exact hf

theorem adds_handler {f : EventHandler NetCallback → Conn Connection}
    (hf : ∀ ev, c.event = some ev → c.Adds data (f ev)) : c.Adds data (c.handler >>= f) := by
  cases hev : c.event with
  | none =>
      rw [handler, hev]
      exact adds_fail _
  | some ev =>
      rw [handler_eq hev, pure_bind]
      exact hf ev hev

theorem adds_foldlM {α : Type} {f : Connection → α → Conn Connection}
    (hf : ∀ (c : Connection) a, c.Adds [] (f c a))
    (l : List α) : c.Adds [] (l.foldlM f c) := by
  induction l generalizing c with
  | nil => exact adds_pure rfl (.inl rfl)
  | cons a l ih =>
      rw [List.foldlM_cons]
      exact adds_bind (hf c a) fun _ => ih

theorem adds_updateEvent (f : EventHandler NetCallback → EventHandler NetCallback) :
    c.Adds [] (c.updateEvent f) :=
  adds_handler fun _ _ => adds_pure rfl (.inl rfl)

theorem adds_handleError : c.Adds [] c.handleError :=
  adds_handler fun _ _ => adds_emit rfl (adds_pure rfl (.inl rfl))

theorem adds_handleClose : c.Adds [] c.handleClose :=
  adds_handler fun _ _ => adds_when rfl (adds_when rfl (adds_pure rfl (.inr rfl)))

theorem adds_handleRead (answer : ReadAnswer) : c.Adds [] (c.handleRead answer) := by
  refine adds_handler fun _ _ => ?_
  cases answer with
  | data bytes => exact adds_when rfl (adds_pure rfl (.inl rfl))
  | eof => exact adds_handleClose
  | failed => exact adds_handleError

theorem adds_handleWrite (answer : WriteAnswer) : c.Adds [] (c.handleWrite answer) := by
  cases hev : c.event with
  | none =>
      rw [handleWrite.eq_def, handler, hev]
      exact adds_fail _
  | some ev =>
      rcases handleWrite_refines hev (.new ⟨0, fun _ => 0⟩) answer with
        ⟨out, ⟨c', ev', heq, hnet, hkeeps⟩ | ⟨heq, -⟩⟩
      · intro c'' hc''
        rw [heq] at hc'' ⊢
        rcases Except.ok.inj hc''
        have hspec := (NetConnection.handleWrite_spec (congrArg Traced.result hnet)).2
        rw [hnet] at hspec
        rw [takenBytes_map_send, List.append_nil]
        exact ⟨hspec, fun hconn => hkeeps.state ▸ hconn⟩
      · intro c'' hc''
        rw [heq] at hc''
        cases hc''

/-- Without the handler `sendInReactor` does nothing if it returns. -/
theorem sendInReactor_noEvent (hev : c.event = none) {answer : WriteAnswer} {c' : Connection}
    (h : (c.sendInReactor data answer).result = .ok c') :
    c.sendInReactor data answer = pure c ∧ ¬c.Takes answer := by
  by_cases hstate : c.state = .eDisconnected
  · refine ⟨?_, fun htakes => htakes.1 hstate⟩
    rw [sendInReactor, if_pos hstate]
  · by_cases hempty : c.writeBuffer = []
    · have hcond : c.writeBuffer.isEmpty = true := by rw [hempty]; rfl
      rw [sendInReactor, if_neg hstate, writeNow.eq_def, if_pos hcond, handler, hev] at h
      cases h
    · have hcond : ¬c.writeBuffer.isEmpty = true := by simpa using hempty
      refine ⟨?_, fun htakes => hempty htakes.2.1⟩
      rw [sendInReactor, if_neg hstate, writeNow.eq_def, if_neg hcond, pure_bind]
      rfl

/-- All of the data is added or none of it. -/
theorem adds_sendInReactor (answer : WriteAnswer) :
    (c.Takes answer → c.Adds data (c.sendInReactor data answer)) ∧
      (¬c.Takes answer → c.Adds [] (c.sendInReactor data answer)) := by
  cases hev : c.event with
  | none =>
      refine ⟨fun htakes c' hc' => absurd htakes (sendInReactor_noEvent hev hc').2, fun _ c' hc' => ?_⟩
      have heq := (sendInReactor_noEvent hev hc').1
      rw [heq] at hc' ⊢
      exact adds_pure rfl (.inl rfl) c' hc'
  | some ev =>
      rcases sendInReactor_refines hev (.new ⟨0, fun _ => 0⟩) data answer with
        ⟨out, c', ev', heq, hnet, hkeeps⟩
      have hadds : ∀ added, NetConnection.acceptedBytes out ++ c'.writeBuffer = c.writeBuffer ++ added →
          c.Adds added (c.sendInReactor data answer) := by
        intro added hbytes c'' hc''
        rw [heq] at hc'' ⊢
        rcases Except.ok.inj hc''
        rw [takenBytes_map_send]
        exact ⟨hbytes, fun hconn => hkeeps.state ▸ hconn⟩
      constructor
      · rintro ⟨hstate, hempty, n, rfl⟩
        rcases NetConnection.sendInReactor_count (c := c.net ev (.new ⟨0, fun _ => 0⟩)) data n hstate
          hempty with ⟨events, n', hrun, -, hbytes⟩
        rw [hnet, Traced.mk.injEq, Except.ok.injEq] at hrun
        rcases hrun with ⟨rfl, rfl⟩
        apply hadds
        rw [hempty]
        exact hbytes
      · intro hnot
        rw [NetConnection.sendInReactor_untaken data (c := c.net ev _) hnot] at hnet
        rcases Traced.mk.inj hnet with ⟨rfl, hsame⟩
        have hbuffer : c.writeBuffer = c'.writeBuffer :=
          congrArg NetConnection.writeBuffer (Except.ok.inj hsame)
        apply hadds
        rw [hbuffer]
        exact (List.append_nil _).symm

theorem adds_shutdownInReactor : c.Adds [] c.shutdownInReactor :=
  adds_handler fun _ _ => adds_when rfl (adds_pure rfl (.inl rfl))

theorem adds_call (read : ReadAnswer) (write : WriteAnswer) (callback : NetCallback) :
    c.Adds [] (c.call read write callback) := by
  cases callback with
  | handleRead => exact adds_handleRead read
  | handleWrite => exact adds_handleWrite write
  | handleClose => exact adds_handleClose
  | handleError => exact adds_handleError

theorem adds_handEvent (revent : BitVec 32) (read : ReadAnswer) (write : WriteAnswer) :
    c.Adds [] (c.handEvent revent read write) := by
  refine adds_bind (adds_updateEvent _) fun c' => adds_handler fun ev _ => adds_foldlM ?_ _
  intro c callback
  exact adds_bind (adds_call read write callback) fun _ => adds_require (adds_pure rfl (.inl rfl))

end Connection

end WebsocketCpp
