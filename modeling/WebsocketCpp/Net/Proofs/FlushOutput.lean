import WebsocketCpp.Net.Proofs.ConnectionRefines
import WebsocketCpp.Net.Proofs.SendPath

/-!
# Buffered output

`sendInReactor` leaves in `writeBuffer_` what the kernel does not take, and `handleWrite` would write
it when the socket can be written again (`outputFlushed_of_handleWrite`). The constructor binds the
three callbacks for writing, closing and errors all with `setWriteCallback`, and the last one stays:
what is called is `handleError`, and `outputFlushed_iff` says that the buffer is never flushed.
-/

namespace WebsocketCpp

/-- What happens to the output: data is sent, and the poller reports `POLLOUT`, with the number of
bytes that the kernel would take. -/
inductive OutputStep where
  | sendInReactor (data : List UInt8) (answer : WriteAnswer)
  | pollout (read : ReadAnswer) (n : Nat)

namespace Connection

def outputStep (c : Connection) : OutputStep → Conn Connection
  | .sendInReactor data answer => c.sendInReactor data answer
  | .pollout read n => c.handEvent POLLOUT read (.count n)

/-- `POLLOUT` is reported to a handler that is interested, and the kernel takes some of the bytes it
is offered. -/
def OutputAllowed (c : Connection) : OutputStep → Prop
  | .sendInReactor _ _ => True
  | .pollout _ n => (∃ ev ∈ c.event, ev.isWriteable = true) ∧ 0 < n ∧ n ≤ c.writeBuffer.length

/-- Write interest is enabled exactly while there is something to write. -/
def InterestKept (c : Connection) : Prop :=
  ∃ ev ∈ c.event, ev.isWriteable = true ↔ c.writeBuffer ≠ []

/-- The first `n` bytes of the buffer go out, and the callback is called when it is empty. -/
def Flushes (c : Connection) (n : Nat) (x : Conn Connection) : Prop :=
  ∃ c', x.result = .ok c' ∧ c'.writeBuffer = c.writeBuffer.drop n ∧ c'.InterestKept ∧
    x.out = .send (.accepted (c.writeBuffer.take n)) ::
      if c'.writeBuffer = [] ∧ c.funcs.writeCompleteFunc then [.send .writeComplete] else []

end Connection

def outputMachine : Machine Connection OutputStep ConnEvent ObjectFault where
  step := Connection.outputStep
  Allowed := Connection.OutputAllowed

/-- In every state the interest is right, and every report of `POLLOUT` flushes. -/
def OutputFlushed (c : Connection) (steps : List OutputStep) : Prop :=
  ∀ before, before <+: steps → ∀ c', (outputMachine.run c before).result = .ok c' →
    c'.InterestKept ∧ ∀ read n, before ++ [.pollout read n] <+: steps →
      c'.Flushes n (c'.outputStep (.pollout read n))

/-- Sending keeps the interest right. -/
theorem NetConnection.interest_sendInReactor {c c' : NetConnection} {data : List UInt8}
    {answer : WriteAnswer} (h : c.isWriteable = true ↔ c.writeBuffer ≠ [])
    (hok : (c.sendInReactor data answer).result = .ok c') :
    c'.isWriteable = true ↔ c'.writeBuffer ≠ [] := by
  by_cases hdrop : c.writeBuffer ≠ [] ∨ ∃ errno, answer = .failed errno
  · rw [sendInReactor_dropped data hdrop] at hok
    rcases Except.ok.inj hok with rfl
    exact h
  rw [not_or, not_not] at hdrop
  rcases hdrop with ⟨hempty, hanswer⟩
  cases answer with
  | failed errno => exact absurd ⟨errno, rfl⟩ hanswer
  | count n =>
      by_cases hstate : c.state = .eDisconnected
      · rw [sendInReactor, if_pos hstate] at hok
        rcases Except.ok.inj hok with rfl
        exact h
      rcases writeNow_count data n hempty with ⟨events, hnow, -⟩
      rw [sendInReactor, if_neg hstate, hnow, Traced.mk_bind] at hok
      dsimp only at hok
      by_cases hremain : 0 < data.length - n
      · rw [if_pos ⟨rfl, hremain⟩] at hok
        rcases Except.ok.inj hok with rfl
        apply iff_of_true rfl
        intro hnil
        have hlength := congrArg List.length hnil
        simp [hempty] at hlength
        omega
      · rw [if_neg fun hboth => hremain hboth.2] at hok
        rcases Except.ok.inj hok with rfl
        exact h

namespace Connection

variable {c c' : Connection} {ev : EventHandler NetCallback}

/-- The handler calls `callback` when the socket can be written, and its interest is right. -/
def Calls (callback : NetCallback) (c : Connection) : Prop :=
  ∃ ev, c.event = some ev ∧ ev.writeCallback = some callback ∧
    (ev.isWriteable = true ↔ c.writeBuffer ≠ [])

theorem Calls.interestKept {callback : NetCallback} (h : c.Calls callback) : c.InterestKept := by
  rcases h with ⟨ev, hev, -, hinterest⟩
  exact ⟨ev, hev, hinterest⟩

theorem calls_sendInReactor {callback : NetCallback} (h : c.Calls callback) (data : List UInt8)
    (answer : WriteAnswer) :
    ∃ c', (c.sendInReactor data answer).result = .ok c' ∧ c'.Calls callback := by
  rcases h with ⟨ev, hev, hcall, hinterest⟩
  obtain ⟨out, c', ev', heq, hnet, hkeeps⟩ :=
    sendInReactor_refines hev (.new ⟨0, fun _ => 0⟩) data answer
  refine ⟨c', by rw [heq], ev', hkeeps.event, hkeeps.writeCallback.trans hcall, ?_⟩
  exact NetConnection.interest_sendInReactor (c := c.net ev _) hinterest (congrArg Traced.result hnet)

/-- `handleWrite`, of some of the bytes it offers. -/
theorem handleWrite_count (h : c.event = some ev) {n : Nat} (hpos : 0 < n)
    (hlen : n ≤ c.writeBuffer.length) :
    c.handleWrite (.count n) =
      ⟨.send (.accepted (c.writeBuffer.take n)) ::
        (if c.writeBuffer.drop n = [] ∧ c.funcs.writeCompleteFunc then [.send .writeComplete] else []),
        .ok { c with
          writeBuffer := c.writeBuffer.drop n
          event := some (if c.writeBuffer.drop n = [] then ev.disableWrite else ev) }⟩ := by
  rw [handleWrite.eq_def, handler_eq h, pure_bind]
  dsimp only
  rw [if_pos hpos, Traced.require_true hlen, pure_bind, Traced.emit_bind]
  by_cases hrest : c.writeBuffer.drop n = []
  · have hevent : ({ c with writeBuffer := c.writeBuffer.drop n } : Connection).event = some ev := h
    rw [if_pos (List.isEmpty_iff.mpr hrest), updateEvent_eq hevent, pure_bind, writeComplete]
    cases hset : c.funcs.writeCompleteFunc <;> simp [hrest]
  · rw [if_neg (mt List.isEmpty_iff.mp hrest)]
    simp [hrest, h]

/-- What `handEvent` does for `POLLOUT`. -/
theorem handEvent_pollout (h : c.event = some ev) {callback : NetCallback}
    (hcall : ev.writeCallback = some callback) (read : ReadAnswer) (write : WriteAnswer) :
    c.handEvent POLLOUT read write =
      ({ c with event := some (ev.setRevents POLLOUT) } : Connection).call read write callback >>=
        fun c => Traced.require (c.event ≠ none) .useAfterFree >>= fun _ => pure c := by
  have hcalls : (ev.setRevents POLLOUT).handEvent = [callback] := by
    rw [EventHandler.handEvent_pollout, hcall]
    rfl
  have hevent : ({ c with event := some (ev.setRevents POLLOUT) } : Connection).event =
    some (ev.setRevents POLLOUT) := rfl
  rw [handEvent, updateEvent_eq h, pure_bind, handler_eq hevent, pure_bind, hcalls, List.foldlM_cons]
  simp

/-- With the constructor's handler nothing is written. -/
theorem pollout_handleError (h : c.Calls .handleError) (read : ReadAnswer) (write : WriteAnswer) :
    ∃ c', c.handEvent POLLOUT read write = ⟨[.getsockError], .ok c'⟩ ∧ c'.Calls .handleError ∧
      c'.writeBuffer = c.writeBuffer := by
  rcases h with ⟨ev, hev, hcall, hinterest⟩
  refine ⟨{ c with event := some (ev.setRevents POLLOUT) }, ?_, ⟨_, rfl, hcall, hinterest⟩, rfl⟩
  rw [handEvent_pollout hev hcall]
  rfl

/-- With `handleWrite` the buffer is flushed. -/
theorem pollout_handleWrite (h : c.Calls .handleWrite) (read : ReadAnswer) {n : Nat} (hpos : 0 < n)
    (hlen : n ≤ c.writeBuffer.length) :
    c.Flushes n (c.handEvent POLLOUT read (.count n)) ∧
      ∃ c', (c.handEvent POLLOUT read (.count n)).result = .ok c' ∧ c'.Calls .handleWrite := by
  rcases h with ⟨ev, hev, hcall, hinterest⟩
  have hwriteable : ev.isWriteable = true := hinterest.mpr fun hnil => by
    rw [hnil] at hlen
    exact absurd hpos (Nat.not_lt.mpr hlen)
  have hcalls : Calls .handleWrite { c with
      writeBuffer := c.writeBuffer.drop n
      event := some (if c.writeBuffer.drop n = [] then (ev.setRevents POLLOUT).disableWrite
        else ev.setRevents POLLOUT) } := by
    refine ⟨_, rfl, ?_, ?_⟩
    · split <;> exact hcall
    · by_cases hrest : c.writeBuffer.drop n = [] <;> simp [hrest, hwriteable]
  have heq : c.handEvent POLLOUT read (.count n) =
      ⟨.send (.accepted (c.writeBuffer.take n)) ::
        (if c.writeBuffer.drop n = [] ∧ c.funcs.writeCompleteFunc then [.send .writeComplete] else []),
        .ok { c with
          writeBuffer := c.writeBuffer.drop n
          event := some (if c.writeBuffer.drop n = [] then (ev.setRevents POLLOUT).disableWrite
            else ev.setRevents POLLOUT) }⟩ := by
    rw [handEvent_pollout hev hcall, call,
      handleWrite_count (c := { c with event := some (ev.setRevents POLLOUT) }) rfl hpos hlen,
      Traced.mk_bind]
    simp
  rw [heq]
  exact ⟨⟨_, rfl, rfl, hcalls.interestKept, rfl⟩, _, rfl, hcalls⟩

end Connection

/-! ## Runs -/

namespace Connection

variable {c : Connection}

/-- The handler goes on calling the same function if a report of `POLLOUT` does not change that. -/
theorem calls_invariant {callback : NetCallback}
    (hpollout : ∀ (c : Connection) read n, c.Calls callback → 0 < n → n ≤ c.writeBuffer.length →
      ∃ c', (c.handEvent POLLOUT read (.count n)).result = .ok c' ∧ c'.Calls callback) :
    outputMachine.Invariant (Calls callback) := by
  intro c a c' h ha hok
  cases a with
  | sendInReactor data answer =>
      rcases calls_sendInReactor h data answer with ⟨c'', hc'', hcalls⟩
      rcases Except.ok.inj (hok.symm.trans hc'') with rfl
      exact hcalls
  | pollout read n =>
      rcases hpollout c read n h ha.2.1 ha.2.2 with ⟨c'', hc'', hcalls⟩
      rcases Except.ok.inj (hok.symm.trans hc'') with rfl
      exact hcalls

theorem calls_handleWrite_invariant : outputMachine.Invariant (Calls .handleWrite) :=
  calls_invariant fun _ read _ h hpos hlen => (pollout_handleWrite h read hpos hlen).2

theorem calls_handleError_invariant : outputMachine.Invariant (Calls .handleError) := by
  apply calls_invariant
  intro c read n h _ _
  rcases pollout_handleError h read (.count n) with ⟨c', hc', hcalls, -⟩
  exact ⟨c', congrArg Traced.result hc', hcalls⟩

theorem calls_handleError_succeeds : outputMachine.Succeeds (Calls .handleError) := by
  intro c a h ha
  cases a with
  | sendInReactor data answer =>
      rcases calls_sendInReactor h data answer with ⟨c', hc', -⟩
      exact ⟨c', hc'⟩
  | pollout read n =>
      rcases pollout_handleError h read (.count n) with ⟨c', hc', -⟩
      exact ⟨c', congrArg Traced.result hc'⟩

/-- A report of `POLLOUT` does not flush. -/
theorem not_flushes_handleError (h : c.Calls .handleError) {read : ReadAnswer} {n : Nat}
    (hpos : 0 < n) (hlen : n ≤ c.writeBuffer.length) :
    ¬c.Flushes n (c.outputStep (.pollout read n)) := by
  rintro ⟨c', hc', hbuffer, -⟩
  rcases pollout_handleError h read (.count n) with ⟨c'', heq, -, hsame⟩
  rw [outputStep, heq] at hc'
  rcases Except.ok.inj hc' with rfl
  have hlength := congrArg List.length (hsame.symm.trans hbuffer)
  rw [List.length_drop] at hlength
  omega

theorem calls_of_connEstablished {funcs : ConnFuncs}
    (h : (Connection.new funcs).connEstablished.result = .ok c) : c.Calls .handleError := by
  rcases funcs with ⟨connCallbackFunc, msgRecvFunc, writeCompleteFunc, closeFunc⟩
  cases connCallbackFunc <;> obtain rfl := Except.ok.inj h <;>
    exact ⟨_, rfl, rfl, by simp [Connection.new]⟩

end Connection

/-- If the handler called `handleWrite`, every run would flush the output. -/
theorem outputFlushed_of_handleWrite {c : Connection} (h : c.Calls .handleWrite)
    {steps : List OutputStep} (hlegal : outputMachine.Legal c steps) : OutputFlushed c steps := by
  rintro before ⟨after, rfl⟩ c' hrun
  have hcalls := Connection.calls_handleWrite_invariant.run h (Machine.legal_append.mp hlegal).1 hrun
  refine ⟨hcalls.interestKept, ?_⟩
  intro read n hpre
  rcases Machine.allowed_of_isPrefix hlegal hpre hrun with ⟨-, -, hpos, hlen⟩
  exact (Connection.pollout_handleWrite hcalls read hpos hlen).1

/-- On an established connection the output is flushed in the runs in which `POLLOUT` is never
reported, and in no other. -/
theorem outputFlushed_iff (funcs : ConnFuncs) {conn : Connection}
    (hconn : (Connection.new funcs).connEstablished.result = .ok conn) {steps : List OutputStep}
    (hlegal : outputMachine.Legal conn steps) :
    OutputFlushed conn steps ↔ ∀ read n, .pollout read n ∉ steps := by
  have hcalls := Connection.calls_of_connEstablished hconn
  constructor
  · intro h read n hmem
    rcases List.append_of_mem hmem with ⟨before, after, rfl⟩
    have hbefore := (Machine.legal_append.mp hlegal).1
    obtain ⟨c, hc⟩ := Connection.calls_handleError_invariant.exists_run
      Connection.calls_handleError_succeeds hcalls hbefore
    have hpre : before ++ [.pollout read n] <+: before ++ .pollout read n :: after :=
      ⟨after, by simp⟩
    rcases Machine.allowed_of_isPrefix hlegal hpre hc with ⟨-, -, hpos, hlen⟩
    exact Connection.not_flushes_handleError
      (Connection.calls_handleError_invariant.run hcalls hbefore hc) hpos hlen
      ((h before (List.prefix_append ..) c hc).2 read n hpre)
  · rintro hnone before ⟨after, rfl⟩ c hrun
    have hkept := Connection.calls_handleError_invariant.run hcalls (Machine.legal_append.mp hlegal).1 hrun
    refine ⟨hkept.interestKept, ?_⟩
    intro read n hpre
    exact absurd (hpre.subset (by simp)) (hnone read n)

/-- The kernel takes one byte of two, and then reports that the socket can be written. -/
def partialWrite : List OutputStep := [.sendInReactor [104, 105] (.count 1), .pollout .failed 1]

theorem legal_partialWrite {conn : Connection}
    (hconn : (Connection.new ⟨false, false, true, false⟩).connEstablished.result = .ok conn) :
    outputMachine.Legal conn partialWrite := by
  rcases Except.ok.inj hconn with rfl
  refine Machine.legal_cons trivial rfl (Machine.legal_cons ⟨⟨_, rfl, ?_⟩, ?_, ?_⟩ rfl trivial)
  · exact EventHandler.isWriteable_enableWrite _
  · exact Nat.zero_lt_one
  · exact Nat.le_refl 1

theorem outputFlushed_iff_partialWrite :
    ∃ conn, (Connection.new ⟨false, false, true, false⟩).connEstablished.result = .ok conn ∧
      (OutputFlushed conn partialWrite ↔ ∀ read n, .pollout read n ∉ partialWrite) :=
  ⟨_, rfl, outputFlushed_iff ⟨false, false, true, false⟩ rfl (legal_partialWrite rfl)⟩

/-- The second byte stays in the buffer. -/
theorem not_outputFlushed_partialWrite :
    ∃ conn, (Connection.new ⟨false, false, true, false⟩).connEstablished.result = .ok conn ∧
      outputMachine.Legal conn partialWrite ∧ ¬OutputFlushed conn partialWrite := by
  refine ⟨_, rfl, legal_partialWrite rfl, ?_⟩
  intro h
  obtain ⟨c, hc, hbuffer, -⟩ :=
    (h [.sendInReactor [104, 105] (.count 1)] (List.prefix_append ..) _ rfl).2 .failed 1
      (List.prefix_refl _)
  rcases Except.ok.inj hc with rfl
  cases hbuffer

end WebsocketCpp
