import WebsocketCpp.Websocket.Proofs.AppMessages
import WebsocketCpp.Websocket.Proofs.Channel

/-!
# From the senders to the application

The bytes that `NetConnection::send` has put on a connection come to `handleRead` of the peer, which gives
them to the decoder and its callback: one decoder for all reads on the client
(`websocket/WSNet.cpp:96-149`), one for each read on the server (`websocket/WebSocketServer.cpp:60-109`).
`clientReceives` and `serverReceives` say what has reached the application, and what the heartbeat has done,
when the reads have been handled.
-/

namespace WebsocketCpp

open Traced

/-! ## The client -/

/-- What `decFrameCallback` does with a run of messages. -/
theorem WSNet.foldlM_decFrameCallback (heart : HeartState) (ms : List (List UInt8)) :
    (ms.map FrameCall.of).foldlM decFrameCallback heart =
      ⟨(ms.filter (· ≠ cspong)).map FrameCall.of, .ok (if cspong ∈ ms then .eWaitPing else heart)⟩ := by
  have hresult : ((ms.map FrameCall.of).foldlM decFrameCallback heart).result =
      .ok (if cspong ∈ ms then .eWaitPing else heart) := by
    induction ms generalizing heart with
    | nil => rfl
    | cons m ms ih =>
        rw [List.map_cons, List.foldlM_cons, decFrameCallback_of]
        by_cases h : m = cspong
        · rw [if_pos h, pure_bind, ih, if_pos (List.mem_cons.mpr (.inl h.symm)), ite_self]
        · rw [if_neg h, mk_bind]
          simp only [ih, List.mem_cons, Ne.symm h, false_or]
  rw [← out_decFrameCallback heart ms, ← hresult]

/-- The decoder of a client that has handled its reads. -/
theorem WSNet.decodeCalls_of_handleReads {net net' : WSNet} {reads : List SocketRead} {calls : List FrameCall}
    (h : net.handleReads reads = ⟨calls, .ok net'⟩) :
    ∃ q, decodeCalls net.proto (reads.map SocketRead.data) = ⟨calls, .ok q⟩ := by
  have hsim := net.handleReads_sim reads
  rw [h] at hsim
  rcases hsim.ok_left rfl with ⟨q, hq, -⟩
  refine ⟨q, ?_⟩
  rw [← hq, show calls = _ from hsim.out_eq]

/-- The client that is at the other end of a connection, with a new decoder, after its reads: of what the
threads of the server have sent, it has been told every message but "PONG" unchanged, and those of one
thread in their order; if one of them was "PONG", its heartbeat waits for the next ping. -/
theorem clientReceives (threadId fd slicing : Nat) {conn : Connection} (hempty : conn.writeBuffer = [])
    {outgoing : Nat → List Outgoing} {steps : List SharedStep}
    (hcalls : ∀ tid, sentBy tid (sendCalls steps) <+: (outgoing tid).flatMap Outgoing.buffers)
    (hround : ∀ tid, ∀ o ∈ outgoing tid, o.RoundTrips)
    (hsingle : ∀ tid, tid ≠ slicing → ∀ o ∈ outgoing tid, o.Single)
    (hlegal : (sharedMachine.restrict SharedConn.TakesBlock).Legal (.start threadId fd conn) steps)
    {s : SharedConn} {out : List SharedEvent}
    (hrun : sharedMachine.run (.start threadId fd conn) steps = ⟨out, .ok s⟩)
    {mem : Nat → UInt8} {net net' : WSNet} (hproto : net.proto = .new mem) {reads : List SocketRead}
    (hreads : (reads.map SocketRead.data).flatten <+: outputOf out) {heart heart' : HeartState}
    {messages : List FrameCall} (hreceive : net.receive heart reads = ⟨messages, .ok (heart', net')⟩) :
    ∃ delivered : List (Nat × List UInt8),
      messages = ((delivered.map Prod.snd).filter (· ≠ cspong)).map FrameCall.of ∧
      heart' = (if cspong ∈ delivered.map Prod.snd then .eWaitPing else heart) ∧
      (∀ tid, sentBy tid delivered <+: (outgoing tid).map Outgoing.payload) ∧
      ((reads.map SocketRead.data).flatten = outputOf out → s.conn.writeBuffer = [] →
        ∀ tid, sentBy tid (ranBlocks out) = (outgoing tid).flatMap Outgoing.buffers →
          sentBy tid delivered = (outgoing tid).map Outgoing.payload) := by
  rcases handle_eq_ok hreceive with ⟨calls, hhandled, hcallback⟩
  rcases WSNet.decodeCalls_of_handleReads hhandled with ⟨q, hdecode⟩
  rw [hproto] at hdecode
  rcases exists_kept threadId fd hempty hcalls hlegal hrun with ⟨kept, hstream, hkept, hran⟩
  have hmask := mask_kept fun tid => (hkept tid).sublist
  rcases front_of_decodeCalls hmask (hreads.trans ⟨_, hstream⟩) hdecode with ⟨front, hfront, hbytes, rfl⟩
  rw [← map_snd_deliveriesBy, WSNet.foldlM_decFrameCallback] at hcallback
  cases hcallback
  refine ⟨deliveriesBy front, rfl, rfl, deliveriesBy_prefix hround hsingle hkept hfront, ?_⟩
  intro hread hflushed tid hsent
  rw [hflushed, List.append_nil, ← hread, hbytes] at hstream
  exact deliveriesBy_all hround hsingle hkept hfront hstream (hran tid ▸ hsent)

/-- What the other end reads of `talk`: the heartbeat and a text, and the other text. -/
def talkReads (block : List UInt8) (h : block ≠ []) : List SocketRead :=
  [⟨block ++ hiBlock, List.append_ne_nil_of_left_ne_nil h _, ⟨0, fun _ => 0⟩, fun _ => 0⟩,
    ⟨helloBlock, List.cons_ne_nil _ _, ⟨0, fun _ => 0⟩, fun _ => 0⟩]

theorem talkReads_prefix {block out : List UInt8} (hout : out = block ++ (hiBlock ++ helloBlock))
    (h : block ≠ []) : ((talkReads block h).map SocketRead.data).flatten <+: out := by
  simp [talkReads, hout]

/-- A server sends a "PONG" and two texts. -/
def pongReads : List SocketRead := talkReads pongBlock (List.cons_ne_nil _ _)

theorem receive_pongReads :
    ∃ net', pingClient.receive .eWaitPong pongReads =
      ⟨[.of [104, 105], .of [104]], .ok (.eWaitPing, net')⟩ := ⟨_, rfl⟩

theorem clientReceives_talk :
    ∃ out s, sharedMachine.run (.start 0 7 openConn) (talk pongBlock) = ⟨out, .ok s⟩ ∧
      ∃ delivered : List (Nat × List UInt8),
        [.of [104, 105], .of [104]] = ((delivered.map Prod.snd).filter (· ≠ cspong)).map FrameCall.of ∧
        HeartState.eWaitPing = (if cspong ∈ delivered.map Prod.snd then .eWaitPing else .eWaitPong) ∧
        (∀ tid, sentBy tid delivered <+: (talkers pongBeat tid).map Outgoing.payload) ∧
        ((pongReads.map SocketRead.data).flatten = outputOf out → s.conn.writeBuffer = [] →
          ∀ tid, sentBy tid (ranBlocks out) = (talkers pongBeat tid).flatMap Outgoing.buffers →
            sentBy tid delivered = (talkers pongBeat tid).map Outgoing.payload) := by
  rcases run_talk (.inr rfl) with ⟨out, s, hrun, hout⟩
  rcases receive_pongReads with ⟨net', hreceive⟩
  have hread : (pongReads.map SocketRead.data).flatten <+: outputOf out := talkReads_prefix hout _
  exact ⟨out, s, hrun, clientReceives 0 7 1 rfl (sendCalls_talk rfl)
    (fun tid o ho => (single_talkers pongBeat trivial tid o ho).roundTrips)
    (fun tid _ => single_talkers pongBeat trivial tid) (legal_threeBlocks _ _ _ _) hrun rfl hread hreceive⟩

/-! ## The server -/

/-- What the server does with one message: a "PING" is answered, and any other handed on. -/
def reaction (id : Nat) (header : WSHead) (m : List UInt8) : List ServerEvent :=
  if m = csping then (Outgoing.pong header).buffers.map (.sent id) else [.message id (.of m)]

/-- One message after the other. -/
def reactions (id : Nat) (moments : Nat → WebSocketServer.Moment) : List (List UInt8) → List ServerEvent
  | [] => []
  | m :: ms => reaction id (moments 0).header m ++ reactions id (fun n => moments (n + 1)) ms

theorem encodeFrame_pong (header : WSHead) :
    ∃ data, encodeFrame header cspong .ePongFrame = ⟨(Outgoing.pong header).buffers, .ok data⟩ := by
  have hmask : (computeMask cspong cspong.length : Traced (List UInt8) Fault _) =
      pure (xorMask cspong) := computeMask_all (by decide)
  rw [Outgoing.buffers, encodeFrame, hmask, pure_bind, emit_bind]
  exact ⟨_, rfl⟩

theorem WebSocketServer.serve_eq (id : Nat) (s : Serving) (m : List UInt8) :
    ∃ heart, serve id s (.of m) =
      ⟨reaction id (s.moments 0).header m, .ok ⟨heart, fun n => s.moments (n + 1)⟩⟩ := by
  rw [serve, decFrameCallback, HeartbeatRecv.updateConn]
  by_cases h : m = csping
  · subst h
    rcases encodeFrame_pong (s.moments 0).header with ⟨data, hpong⟩
    rw [reaction, if_pos rfl, processPing, callEquals_of, ofExcept_ok, pure_bind, decide_eq_true rfl,
      if_pos rfl, hpong]
    refine ⟨⟨touch id (s.moments 0).now s.heart.connList⟩, ?_⟩
    rfl
  · rw [reaction, if_neg h, processPing_other _ id h]
    exact ⟨_, rfl⟩

theorem WebSocketServer.foldlM_serve (id : Nat) (s : Serving) (ms : List (List UInt8)) :
    ∃ s', (ms.map FrameCall.of).foldlM (serve id) s = ⟨reactions id s.moments ms, .ok s'⟩ := by
  induction ms generalizing s with
  | nil => exact ⟨s, rfl⟩
  | cons m ms ih =>
      rcases serve_eq id s m with ⟨heart, hserve⟩
      rcases ih ⟨heart, fun n => s.moments (n + 1)⟩ with ⟨s', hs'⟩
      refine ⟨s', ?_⟩
      rw [List.map_cons, List.foldlM_cons, hserve, mk_bind, hs']
      rfl

/-- What decoders, one for each read, return on is masked frames, each read whole ones. -/
theorem cuts_of_handleReads {fs : List Frame} (hmask : ∀ f ∈ fs, f.head.mask = 1)
    {reads : List SocketRead} (hpre : (reads.map SocketRead.data).flatten <+: wires fs)
    {calls : List FrameCall} {conn conn' : NetConnection}
    (h : WebSocketServer.handleReads conn reads = ⟨calls, .ok conn'⟩) :
    ∃ cuts : List (List Frame), cuts.flatten <+: fs ∧
      (reads.map SocketRead.data).flatten = wires cuts.flatten ∧
      calls = (cuts.flatMap fun c => Fragment.replay [] (c.map Frame.fragment)).map FrameCall.of := by
  induction reads generalizing fs calls conn with
  | nil =>
      cases h
      exact ⟨[], List.nil_prefix, rfl, rfl⟩
  | cons r reads ih =>
      rw [WebSocketServer.handleReads, List.foldlM_cons, bind_eq_ok_iff] at h
      rcases h with ⟨conn₁, out, rest, hfirst, hrest, rfl⟩
      have hsim := WebSocketServer.handleRead_sim conn r
      rw [hfirst] at hsim
      rcases hsim.ok_left rfl with ⟨q, hq, -⟩
      have hdecode : decodeCalls (.new r.heap) [r.data] = ⟨out, .ok q⟩ := by
        rw [decodeCalls_cons, show out = _ from hsim.out_eq, ← hq]
        exact bind_pure _
      have haccepts := (decodeCalls_accepts_iff (p := .new r.heap) (Nat.zero_le _) _ _ _).mp ⟨q, hdecode, rfl⟩
      rw [List.map_cons, List.flatten_cons] at hpre
      have hpre₁ : [r.data].flatten <+: wires fs := by
        rw [List.flatten_singleton]
        exact (List.prefix_append ..).trans hpre
      rcases frames_of_acceptsAll haccepts hmask hpre₁ with ⟨c, ⟨gs, rfl⟩, hc, rfl⟩
      rw [List.flatten_singleton] at hc
      rw [hc, wires_append, List.prefix_append_right_inj] at hpre
      rcases ih (fun g hg => hmask g (List.mem_append_right _ hg)) hpre hrest with ⟨cuts, hcuts, hbytes, rfl⟩
      refine ⟨c :: cuts, ?_, ?_, ?_⟩
      · rw [List.flatten_cons]
        exact (List.prefix_append_right_inj _).mpr hcuts
      · rw [List.map_cons, List.flatten_cons, List.flatten_cons, hc, hbytes, wires_append]
      · rw [List.flatMap_cons, List.map_append]
        rfl

/-- A decoder that is made anew where a read begins does as well as one that is kept, if nobody sends in
slices. -/
theorem replay_cuts {kept front : List (Nat × Frame)} {outgoing : Nat → List Outgoing}
    (hkept : ∀ tid, sentBy tid kept <+: (outgoing tid).flatMap Outgoing.frames)
    (hsingle : ∀ tid, ∀ o ∈ outgoing tid, o.Single) (hfront : front <+: kept) {cuts : List (List Frame)}
    (hcuts : front.map Prod.snd = cuts.flatten) :
    (cuts.flatMap fun c => Fragment.replay [] (c.map Frame.fragment)) =
      (deliveriesBy front).map Prod.snd := by
  have hfrags : (cuts.map (List.map Frame.fragment)).flatten = front.map fun x => x.2.fragment := by
    rw [← List.map_flatten, ← hcuts, List.map_map]
    rfl
  have hwhole : ∀ f ∈ (cuts.map (List.map Frame.fragment)).flatten, ∃ c, f = Fragment.whole c := by
    rw [hfrags]
    intro f hf
    rcases List.mem_map.mp hf with ⟨x, hx, rfl⟩
    exact exists_whole hkept (hfront.subset hx) (hsingle x.1)
  rw [map_snd_deliveriesBy, ← hfrags, ← Fragment.flatMap_replay_of_whole hwhole, List.flatMap_map]

/-- The server at the other end of a connection on which nobody sends in slices, after its reads: of what
the threads of the client have sent, every message but "PING" has been handed to the application unchanged
and every "PING" has been answered by one pong, in one order that keeps that of each thread. -/
theorem serverReceives (threadId fd : Nat) {conn : Connection} (hempty : conn.writeBuffer = [])
    {outgoing : Nat → List Outgoing} {steps : List SharedStep}
    (hcalls : ∀ tid, sentBy tid (sendCalls steps) <+: (outgoing tid).flatMap Outgoing.buffers)
    (hsingle : ∀ tid, ∀ o ∈ outgoing tid, o.Single)
    (hlegal : (sharedMachine.restrict SharedConn.TakesBlock).Legal (.start threadId fd conn) steps)
    {s : SharedConn} {out : List SharedEvent}
    (hrun : sharedMachine.run (.start threadId fd conn) steps = ⟨out, .ok s⟩) {reads : List SocketRead}
    (hreads : (reads.map SocketRead.data).flatten <+: outputOf out) {id : Nat}
    {serving serving' : WebSocketServer.Serving} {peer peer' : NetConnection} {events : List ServerEvent}
    (hreceive : WebSocketServer.receive id serving peer reads = ⟨events, .ok (serving', peer')⟩) :
    ∃ delivered : List (Nat × List UInt8),
      events = reactions id serving.moments (delivered.map Prod.snd) ∧
      (∀ tid, sentBy tid delivered <+: (outgoing tid).map Outgoing.payload) ∧
      ((reads.map SocketRead.data).flatten = outputOf out → s.conn.writeBuffer = [] →
        ∀ tid, sentBy tid (ranBlocks out) = (outgoing tid).flatMap Outgoing.buffers →
          sentBy tid delivered = (outgoing tid).map Outgoing.payload) := by
  rcases handle_eq_ok hreceive with ⟨calls, hhandled, hcallback⟩
  rcases exists_kept threadId fd hempty hcalls hlegal hrun with ⟨kept, hstream, hkept, hran⟩
  have hmask : ∀ f ∈ kept.map Prod.snd, f.head.mask = 1 := by
    simpa using fun f tid hmem => mask_kept (fun tid => (hkept tid).sublist) (tid, f) hmem
  rcases cuts_of_handleReads hmask (hreads.trans ⟨_, hstream⟩) hhandled with ⟨cuts, hcuts, hbytes, rfl⟩
  rcases List.prefix_map_iff.mp hcuts with ⟨front, hfront, heq⟩
  have hround : ∀ tid, ∀ o ∈ outgoing tid, o.RoundTrips := fun tid o ho => (hsingle tid o ho).roundTrips
  have hothers : ∀ tid, tid ≠ 0 → ∀ o ∈ outgoing tid, o.Single := fun tid _ => hsingle tid
  rcases WebSocketServer.foldlM_serve id serving ((deliveriesBy front).map Prod.snd) with ⟨s', hs'⟩
  rw [replay_cuts hkept hsingle hfront heq.symm, hs'] at hcallback
  cases hcallback
  refine ⟨deliveriesBy front, rfl, deliveriesBy_prefix hround hothers hkept hfront, ?_⟩
  intro hread hflushed tid hsent
  rw [hflushed, List.append_nil, ← hread, hbytes, heq] at hstream
  exact deliveriesBy_all hround hothers hkept hfront hstream (hran tid ▸ hsent)

/-- A client sends a "PING" and two texts. -/
def pingReads : List SocketRead := talkReads pingBlock (List.cons_ne_nil _ _)

theorem receive_pingReads :
    ∃ serving' peer', WebSocketServer.receive 7 pingServer (.new ⟨0, fun _ => 0⟩ false) pingReads =
      ⟨[.sent 7 pongBlock, .message 7 (.of [104, 105]), .message 7 (.of [104])], .ok (serving', peer')⟩ :=
  ⟨_, _, rfl⟩

theorem serverReceives_talk :
    ∃ out s, sharedMachine.run (.start 0 7 openConn) (talk pingBlock) = ⟨out, .ok s⟩ ∧
      ∃ delivered : List (Nat × List UInt8),
        [.sent 7 pongBlock, .message 7 (.of [104, 105]), .message 7 (.of [104])] =
          reactions 7 pingServer.moments (delivered.map Prod.snd) ∧
        (∀ tid, sentBy tid delivered <+: (talkers pingBeat tid).map Outgoing.payload) ∧
        ((pingReads.map SocketRead.data).flatten = outputOf out → s.conn.writeBuffer = [] →
          ∀ tid, sentBy tid (ranBlocks out) = (talkers pingBeat tid).flatMap Outgoing.buffers →
            sentBy tid delivered = (talkers pingBeat tid).map Outgoing.payload) := by
  rcases run_talk (.inl rfl) with ⟨out, s, hrun, hout⟩
  rcases receive_pingReads with ⟨serving', peer', hreceive⟩
  have hread : (pingReads.map SocketRead.data).flatten <+: outputOf out := talkReads_prefix hout _
  exact ⟨out, s, hrun, serverReceives 0 7 rfl (sendCalls_talk rfl) (single_talkers pingBeat trivial)
    (legal_threeBlocks _ _ _ _) hrun hread hreceive⟩

end WebsocketCpp
