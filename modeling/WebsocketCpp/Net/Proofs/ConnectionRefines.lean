import WebsocketCpp.Net.Connection

/-!
# The send path of a connection with its handler

As long as `event_` is there, `Connection` does on the send path what `NetConnection` does, whose
`isWriteable` is the write interest of the handler.
-/

namespace WebsocketCpp

namespace Connection

variable {c c' : Connection} {ev ev' : EventHandler NetCallback}

/-- The connection as the send path sees it. -/
def net (c : Connection) (ev : EventHandler NetCallback) (readBuffer : Buffer) : NetConnection where
  state := c.state
  readBuffer := readBuffer
  writeBuffer := c.writeBuffer
  isWriteable := ev.isWriteable
  writeCompleteFunc := c.funcs.writeCompleteFunc

/-- What the send path leaves as it was. -/
structure Keeps (c c' : Connection) (ev ev' : EventHandler NetCallback) : Prop where
  event : c'.event = some ev'
  state : c'.state = c.state
  funcs : c'.funcs = c.funcs
  callbacks : ev'.callbacks = ev.callbacks

theorem Keeps.refl (h : c.event = some ev) : c.Keeps c ev ev := ⟨h, rfl, rfl, rfl⟩

theorem Keeps.writeCallback (h : c.Keeps c' ev ev') : ev'.writeCallback = ev.writeCallback :=
  congrArg (·.2.1) h.callbacks

theorem handler_eq (h : c.event = some ev) : c.handler = pure ev := by rw [handler, h]

theorem updateEvent_eq (h : c.event = some ev) (f : EventHandler NetCallback → EventHandler NetCallback) :
    c.updateEvent f = pure { c with event := some (f ev) } := by
  rw [updateEvent, handler_eq h, pure_bind]

theorem writeComplete_refines (c : Connection) :
    ∃ out, c.writeComplete = ⟨out.map .send, .ok ()⟩ ∧
      ∀ n : NetConnection, n.writeCompleteFunc = c.funcs.writeCompleteFunc →
        n.writeComplete = ⟨out, .ok ()⟩ := by
  rw [writeComplete]
  cases hset : c.funcs.writeCompleteFunc with
  | true => exact ⟨[.writeComplete], rfl, fun n hn => by rw [NetConnection.writeComplete, hn]; rfl⟩
  | false => exact ⟨[], rfl, fun n hn => by rw [NetConnection.writeComplete, hn]; rfl⟩

theorem writeNow_refines (h : c.event = some ev) (readBuffer : Buffer) (data : List UInt8)
    (answer : WriteAnswer) :
    ∃ out r, c.writeNow data answer = ⟨out.map .send, .ok r⟩ ∧
      (c.net ev readBuffer).writeNow data answer = ⟨out, .ok r⟩ := by
  rw [writeNow.eq_def, NetConnection.writeNow.eq_def, handler_eq h]
  cases hempty : c.writeBuffer.isEmpty with
  | false =>
      have hnet : ((c.net ev readBuffer).writeBuffer.isEmpty = true) = False := by
        simp [net, hempty]
      rw [if_neg Bool.false_ne_true, if_neg hnet.mp]
      exact ⟨[], _, rfl, rfl⟩
  | true =>
      rw [if_pos rfl, if_pos (show (c.net ev readBuffer).writeBuffer.isEmpty = true from hempty),
        pure_bind]
      cases answer with
      | failed errno => exact ⟨[], _, rfl, rfl⟩
      | count nowwrite =>
          obtain ⟨out, hout, hout'⟩ := c.writeComplete_refines
          by_cases hremain : data.length - nowwrite = 0
          · refine ⟨.accepted (data.take nowwrite) :: out, (false, nowwrite, data.length - nowwrite),
              ?_, ?_⟩
            · simp only [if_pos hremain, hout, Traced.mk_bind, Traced.emit_bind]
              simp
            · simp only [if_pos hremain, hout' (c.net ev readBuffer) rfl, Traced.mk_bind, Traced.emit_bind]
              simp
          · refine ⟨[.accepted (data.take nowwrite)], (false, nowwrite, data.length - nowwrite),
              ?_, ?_⟩ <;> simp only [if_neg hremain] <;> rfl

/-- `sendInReactor` never fails. -/
theorem sendInReactor_refines (h : c.event = some ev) (readBuffer : Buffer) (data : List UInt8)
    (answer : WriteAnswer) :
    ∃ out c' ev', c.sendInReactor data answer = ⟨out.map .send, .ok c'⟩ ∧
      (c.net ev readBuffer).sendInReactor data answer = ⟨out, .ok (c'.net ev' readBuffer)⟩ ∧
      c.Keeps c' ev ev' := by
  rw [sendInReactor, NetConnection.sendInReactor]
  by_cases hstate : c.state = .eDisconnected
  · rw [if_pos hstate, if_pos (show (c.net ev readBuffer).state = _ from hstate)]
    exact ⟨[], c, ev, rfl, rfl, .refl h⟩
  rw [if_neg hstate, if_neg (show ¬(c.net ev readBuffer).state = _ from hstate)]
  obtain ⟨out, ⟨bret, nowwrite, remain⟩, hnow, hnow'⟩ := writeNow_refines h readBuffer data answer
  rw [hnow, hnow', Traced.mk_bind, Traced.mk_bind]
  dsimp only
  by_cases hremain : bret = false ∧ 0 < remain
  · rw [if_pos hremain, if_pos hremain, handler_eq (by exact h), pure_bind]
    cases hwriteable : ev.isWriteable with
    | true =>
        refine ⟨out, { c with writeBuffer := c.writeBuffer ++ (data.drop nowwrite).take remain }, ev,
          ?_, ?_, ⟨h, rfl, rfl, rfl⟩⟩
        · simp
        · simp [net, hwriteable]
    | false =>
        refine ⟨out, { c with
          event := some ev.enableWrite
          writeBuffer := c.writeBuffer ++ (data.drop nowwrite).take remain }, ev.enableWrite,
          ?_, ?_, ⟨rfl, rfl, rfl, rfl⟩⟩
        · have hevent : ({ c with
              writeBuffer := c.writeBuffer ++ (data.drop nowwrite).take remain } : Connection).event =
                some ev := h
          simp [updateEvent_eq hevent]
        · simp [net]
  · rw [if_neg hremain, if_neg hremain]
    exact ⟨out, c, ev, by simp, by simp, .refl h⟩

/-- `handleWrite` fails where it does without the handler. -/
theorem handleWrite_refines (h : c.event = some ev) (readBuffer : Buffer) (answer : WriteAnswer) :
    ∃ out, (∃ c' ev', c.handleWrite answer = ⟨out.map .send, .ok c'⟩ ∧
        (c.net ev readBuffer).handleWrite answer = ⟨out, .ok (c'.net ev' readBuffer)⟩ ∧
        c.Keeps c' ev ev') ∨
      c.handleWrite answer = ⟨out.map .send, .error .assertion⟩ ∧
        (c.net ev readBuffer).handleWrite answer = ⟨out, .error .assertion⟩ := by
  rw [handleWrite.eq_def, NetConnection.handleWrite.eq_def, handler_eq h, pure_bind]
  cases answer with
  | failed errno => exact ⟨[], .inr ⟨rfl, rfl⟩⟩
  | count n =>
      dsimp only
      by_cases hpos : 0 < n
      case neg =>
        rw [if_neg hpos, if_neg hpos]
        exact ⟨[], .inr ⟨rfl, rfl⟩⟩
      rw [if_pos hpos, if_pos hpos]
      by_cases hlen : n ≤ c.writeBuffer.length
      case neg =>
        rw [Traced.require_false hlen,
          Traced.require_false (show ¬n ≤ (c.net ev readBuffer).writeBuffer.length from hlen)]
        exact ⟨[.accepted (c.writeBuffer.take n)], .inr ⟨rfl, rfl⟩⟩
      rw [Traced.require_true hlen,
        Traced.require_true (show n ≤ (c.net ev readBuffer).writeBuffer.length from hlen)]
      simp only [pure_bind, Traced.emit_bind]
      cases hrest : (c.writeBuffer.drop n).isEmpty with
      | false =>
          refine ⟨[.accepted (c.writeBuffer.take n)], .inl ⟨{ c with writeBuffer := c.writeBuffer.drop n },
            ev, ?_, ?_, ⟨h, rfl, rfl, rfl⟩⟩⟩
          · simp
          · simp [net, hrest]
      | true =>
          have hevent : ({ c with writeBuffer := c.writeBuffer.drop n } : Connection).event = some ev := h
          obtain ⟨out, hout, hout'⟩ := writeComplete_refines
            { c with writeBuffer := c.writeBuffer.drop n, event := some ev.disableWrite }
          refine ⟨.accepted (c.writeBuffer.take n) :: out, .inl ⟨{ c with
            writeBuffer := c.writeBuffer.drop n, event := some ev.disableWrite }, ev.disableWrite,
            ?_, ?_, ⟨rfl, rfl, rfl, rfl⟩⟩⟩
          · rw [if_pos rfl, updateEvent_eq hevent, pure_bind, hout, Traced.mk_bind]
            simp
          · rw [if_pos (by exact hrest), hout' _ rfl, Traced.mk_bind]
            simp [net]

end Connection

end WebsocketCpp
