import WebsocketCpp.Websocket.Proofs.EncodeFrames
import WebsocketCpp.Websocket.Proofs.FrameSemantics
import WebsocketCpp.Websocket.Proofs.ReceivePath

/-!
# Which messages reach the application

`decFrameCallback` is not told the opcode of a frame. On the server
(`websocket/WebSocketServer.cpp:87-109`, `websocket/Heartbeat.cpp:160-218`) a message is a
heartbeat if its bytes are "PING", on the client (`websocket/WSNet.cpp:123-149`) if they are
"PONG"; every other message goes to the application, whatever frames it came in.
-/

namespace WebsocketCpp

open Traced

theorem callEquals_of (m str : List UInt8) :
    callEquals (.of m) str = .ok (decide (m = str)) := by
  rw [callEquals, FrameCall.len_of, FrameCall.data_of]
  by_cases hlen : m.length = str.length
  · rw [if_pos hlen, if_pos (Nat.le_refl _), List.take_length]
  · have hne : m ≠ str := fun h => hlen (congrArg List.length h)
    rw [if_neg hlen, decide_eq_false hne]

/-! ## The callback of the client -/

theorem WSNet.decFrameCallback_of (heart : HeartState) (m : List UInt8) :
    decFrameCallback heart (.of m) =
      if m = cspong then pure .eWaitPing else ⟨[.of m], .ok heart⟩ := by
  rw [decFrameCallback, callEquals_of, ofExcept_ok, pure_bind]
  by_cases h : m = cspong
  · rw [decide_eq_true h, if_pos rfl, if_pos h]
    rfl
  · rw [decide_eq_false h, if_neg (by decide), if_neg h]
    rfl

/-- The client passes on all messages but "PONG". -/
theorem WSNet.out_decFrameCallback (heart : HeartState) (ms : List (List UInt8)) :
    ((ms.map FrameCall.of).foldlM decFrameCallback heart).out =
      (ms.filter (· ≠ cspong)).map FrameCall.of := by
  induction ms generalizing heart with
  | nil => rfl
  | cons m ms ih =>
      rw [List.map_cons, List.foldlM_cons, decFrameCallback_of]
      by_cases h : m = cspong
      · rw [if_pos h, pure_bind, List.filter_cons_of_neg (by simpa using h)]
        exact ih _
      · rw [if_neg h, mk_bind, List.filter_cons_of_pos (by simpa using h), List.map_cons, ih]
        rfl

/-! ## The callback of the server -/

theorem appCalls_append (xs ys : List ServerEvent) :
    appCalls (xs ++ ys) = appCalls xs ++ appCalls ys := List.filterMap_append

theorem appCalls_sent (conn : Nat) (buffs : List (List UInt8)) :
    appCalls (buffs.map (.sent conn)) = [] := by
  induction buffs with
  | nil => rfl
  | cons b bs ih => exact ih

/-- A "PING" is answered. -/
theorem processPing_of_callEquals (header : WSHead) (conn : Nat) {call : FrameCall}
    (h : callEquals call csping = .ok true) : ∃ buffs : List (List UInt8),
      processPing header conn call = ⟨buffs.map (.sent conn), .ok 1⟩ := by
  have hmask : (computeMask cspong cspong.length : Traced (List UInt8) Fault _) =
      pure (xorMask cspong) := computeMask_all (by decide)
  rw [processPing, h, ofExcept_ok, pure_bind, if_pos rfl]
  simp only [encodeFrame, hmask, pure_bind, emit_bind]
  exact ⟨[_], rfl⟩

theorem processPing_csping (header : WSHead) (conn : Nat) :
    ∃ buffs : List (List UInt8), processPing header conn (.of csping) =
      ⟨buffs.map (.sent conn), .ok 1⟩ :=
  processPing_of_callEquals header conn ((callEquals_of csping csping).trans (by rw [decide_eq_true rfl]))

theorem processPing_other (header : WSHead) (conn : Nat) {m : List UInt8} (h : m ≠ csping) :
    processPing header conn (.of m) = pure 0 := by
  rw [processPing, callEquals_of, ofExcept_ok, pure_bind, decide_eq_false h]
  rfl

/-- One call: the application sees the message unless it is "PING". -/
theorem WebSocketServer.decFrameCallback_of (header : WSHead) (id now : Nat) (heart : HeartbeatRecv)
    (m : List UInt8) :
    ∃ heart', (decFrameCallback header id now heart (.of m)).result = .ok heart' ∧
      appCalls (decFrameCallback header id now heart (.of m)).out =
        if m = csping then [] else [(id, .of m)] := by
  unfold decFrameCallback HeartbeatRecv.updateConn
  by_cases h : m = csping
  · obtain ⟨buffs, hping⟩ := processPing_csping header id
    rw [h, if_pos rfl, hping, mk_bind]
    refine ⟨_, rfl, ?_⟩
    change appCalls ((buffs.map (.sent id) ++ []) ++ []) = []
    rw [List.append_nil, List.append_nil, appCalls_sent]
  · rw [if_neg h, processPing_other _ id h, pure_bind]
    exact ⟨_, rfl, rfl⟩

theorem WebSocketServer.serve_of (id : Nat) (s : Serving) (m : List UInt8) :
    ∃ s', (serve id s (.of m)).result = .ok s' ∧
      appCalls (serve id s (.of m)).out = if m = csping then [] else [(id, .of m)] := by
  obtain ⟨heart', hr, hout⟩ :=
    decFrameCallback_of (s.moments 0).header id (s.moments 0).now s.heart m
  rw [serve, bind_of_ok hr]
  refine ⟨_, rfl, ?_⟩
  rw [← hout]
  exact congrArg appCalls (List.append_nil _)

/-- The server passes on all messages but "PING". -/
theorem WebSocketServer.out_serve (id : Nat) (s : Serving) (ms : List (List UInt8)) :
    appCalls ((ms.map FrameCall.of).foldlM (serve id) s).out =
      (ms.filter (· ≠ csping)).map fun m => (id, .of m) := by
  induction ms generalizing s with
  | nil => rfl
  | cons m ms ih =>
      obtain ⟨s', hs', hout⟩ := serve_of id s m
      rw [List.map_cons, List.foldlM_cons, bind_of_ok hs']
      change appCalls (_ ++ _) = _
      rw [appCalls_append, hout, ih]
      by_cases h : m = csping
      · rw [if_pos h, List.filter_cons_of_neg (by simpa using h), List.nil_append]
      · rw [if_neg h, List.filter_cons_of_pos (by simpa using h)]
        rfl

/-! ## From the frames to the application -/

/-- The messages of a sequence of frames, whatever their opcodes. -/
def messagesOf (fs : List Frame) : List (List UInt8) :=
  Fragment.messages [] (fs.map Frame.fragment)

/-- Frames that are accepted, whose messages come in order and fit the reassembly buffer. -/
structure InOrder (fs : List Frame) : Prop where
  accepted : ∀ f ∈ fs, f.Accepted
  grammatical : Fragment.Grammatical false (fs.map Frame.fragment)
  length_le : ∀ m ∈ messagesOf fs, m.length ≤ MAX_FRAMESIZE
  length_opened_le : (Fragment.opened [] (fs.map Frame.fragment)).length ≤ MAX_FRAMESIZE

/-- Such frames are received, whatever was received before. -/
theorem InOrder.receiveAll_eq {fs : List Frame} (h : InOrder fs) (acc : List UInt8) :
    receiveAll acc fs = ⟨(messagesOf fs).map FrameCall.of,
      .ok (Fragment.pending acc (fs.map Frame.fragment))⟩ := by
  have hfit := (Fragment.allFit_of_grammatical MAX_FRAMESIZE _ [] h.length_le
    h.length_opened_le).1 h.grammatical acc
  rw [receiveAll_ok h.accepted hfit, (Fragment.replay_of_grammatical _ []).1 h.grammatical]
  rfl

/-- A decoder for each call. -/
theorem out_freshCalls {cuts : List (List Frame)}
    (hlen : ∀ c ∈ cuts, (wires c).length < MAX_FRAMESIZE) (h : ∀ c ∈ cuts, InOrder c) :
    (freshCalls cuts).out = (cuts.flatMap messagesOf).map FrameCall.of := by
  induction cuts with
  | nil => rfl
  | cons c cs ih =>
      rw [freshCalls_cons, receiveCall_of_lt (hlen c (List.mem_cons_self ..)),
        (h c (List.mem_cons_self ..)).receiveAll_eq, mk_bind, List.flatMap_cons, List.map_append]
      change _ ++ (freshCalls cs).out = _
      rw [ih (fun d hd => hlen d (List.mem_cons_of_mem _ hd))
        fun d hd => h d (List.mem_cons_of_mem _ hd)]

/-- One decoder for all calls. -/
theorem keptCalls_eq (acc : List UInt8) {cuts : List (List Frame)}
    (hlen : ∀ c ∈ cuts, (wires c).length < MAX_FRAMESIZE) :
    keptCalls acc cuts = receiveAll acc cuts.flatten := by
  induction cuts generalizing acc with
  | nil => rfl
  | cons c cs ih =>
      rw [keptCalls_cons, receiveCall_of_lt (hlen c (List.mem_cons_self ..)), List.flatten_cons,
        receiveAll_append]
      congr 1
      funext acc'
      exact ih acc' fun d hd => hlen d (List.mem_cons_of_mem _ hd)

/-- On the server, where every message has to lie in one read. -/
theorem appCalls_receive (w : FrameReads) (hlen : ∀ c ∈ w.cuts, (wires c).length < MAX_FRAMESIZE)
    (h : ∀ c ∈ w.cuts, InOrder c) (id : Nat) (s : WebSocketServer.Serving) (conn : NetConnection) :
    appCalls (WebSocketServer.receive id s conn w.reads).out =
      ((w.cuts.flatMap messagesOf).filter (· ≠ csping)).map fun m => (id, .of m) := by
  rw [WebSocketServer.receive, out_handle, out_handleReads_server, out_freshCalls hlen h,
    WebSocketServer.out_serve]

/-- On the client. -/
theorem out_receive (w : FrameReads) (hlen : ∀ c ∈ w.cuts, (wires c).length < MAX_FRAMESIZE)
    (h : InOrder w.cuts.flatten) (net : WSNet) (heart : HeartState) :
    (net.receive heart w.reads).out =
      ((messagesOf w.cuts.flatten).filter (· ≠ cspong)).map FrameCall.of := by
  rw [WSNet.receive, out_handle, out_handleReads_client, keptCalls_eq _ hlen, h.receiveAll_eq,
    WSNet.out_decFrameCallback]

/-- The application is given every message once and unchanged, whatever the opcodes, but no "PING"
on the server and no "PONG" on the client. -/
theorem appMessages_of_reads (w : FrameReads)
    (hlen : ∀ c ∈ w.cuts, (wires c).length < MAX_FRAMESIZE) :
    ((∀ c ∈ w.cuts, InOrder c) → ∀ id s conn,
      appCalls (WebSocketServer.receive id s conn w.reads).out =
        ((w.cuts.flatMap messagesOf).filter (· ≠ csping)).map fun m => (id, FrameCall.of m)) ∧
    (InOrder w.cuts.flatten → ∀ (net : WSNet) (heart : HeartState),
      (net.receive heart w.reads).out =
        ((messagesOf w.cuts.flatten).filter (· ≠ cspong)).map FrameCall.of) :=
  ⟨appCalls_receive w hlen, out_receive w hlen⟩

/-- A text "PING" and a close frame with the payload "bye". -/
def textPing : List Frame :=
  [.short 1 .eTextFrame 0 csping (by decide),
    .short 1 .eCloseFrame 0 [0x62, 0x79, 0x65] (by decide)]

/-- They come in one read. -/
def textPingRead : FrameReads where
  reads := [⟨wires textPing, by decide, ⟨0, fun _ => 0⟩, fun _ => 0⟩]
  cuts := [textPing]
  data_eq := rfl

theorem inOrder_textPing : InOrder textPing where
  accepted := by decide
  grammatical := by decide
  length_le := by decide
  length_opened_le := by decide

theorem textPingRead_inOrder : ∀ c ∈ textPingRead.cuts, InOrder c := by
  intro c hc
  rw [List.mem_singleton.mp hc]
  exact inOrder_textPing

/-- A server and a client that receive them. -/
def pingServer : WebSocketServer.Serving := ⟨⟨[]⟩, fun _ => ⟨⟨0, 0, 0, 0, 0⟩, 0⟩⟩

def pingClient : WSNet := ⟨.new ⟨0, fun _ => 0⟩ false, .new fun _ => 0⟩

/-- The server withholds the text, the client passes on both. -/
theorem appMessages_of_textPing :
    appCalls (WebSocketServer.receive 7 pingServer (.new ⟨0, fun _ => 0⟩ false)
        textPingRead.reads).out = [(7, .of [0x62, 0x79, 0x65])] ∧
      (pingClient.receive .eWaitPong textPingRead.reads).out =
        [.of csping, .of [0x62, 0x79, 0x65]] := by
  obtain ⟨hserver, hclient⟩ := appMessages_of_reads textPingRead (by decide)
  refine ⟨(hserver textPingRead_inOrder 7 pingServer _).trans (by decide), ?_⟩
  exact (hclient inOrder_textPing pingClient .eWaitPong).trans (by decide)

/-- The application of the server gets the close frame in place of the text. -/
theorem not_transparent_textPing :
    appCalls (WebSocketServer.receive 7 pingServer (.new ⟨0, fun _ => 0⟩ false)
        textPingRead.reads).out ≠ [(7, .of csping)] := by
  rw [appCalls_receive textPingRead (by decide) textPingRead_inOrder 7 pingServer]
  decide

end WebsocketCpp
