import Mathlib.Data.Set.List
import WebsocketCpp.Net.Proofs.SharedSend
import WebsocketCpp.Websocket.Proofs.Acceptance
import WebsocketCpp.Websocket.Proofs.ControlFrames
import WebsocketCpp.Websocket.Proofs.RoundTrip

/-!
# From the senders to the decoder

Threads hand messages, pings and pongs to `encodeFrame` (`websocket/WSNet.cpp:58-76`,
`websocket/Heartbeat.cpp:70-95, 198-218`), whose buffers go through `NetConnection::send`; the peer gives
what it reads to one `WSProtocol`. `channelFrames`: what the peer's decoder returns on is always a row of
whole frames, those of each thread in the order it has sent them. `channelMessages`: the messages of all
threads are delivered as they were sent if at most one of them sends messages in slices, and nothing
comes in the way of the connection.
-/

namespace WebsocketCpp

/-! ## What is sent -/

/-- A call of `encodeFrame`, with what its local header holds. -/
inductive Outgoing where
  | message (m : Message)
  /-- Of `HeartbeatSender`. -/
  | ping (header : WSHead)
  /-- Of `HeartbeatRecv`. -/
  | pong (header : WSHead)

namespace Outgoing

def payload : Outgoing → List UInt8
  | message m => m.payload
  | ping _ => csping
  | pong _ => cspong

/-- The buffers that `encodeFrame` hands to its callback. -/
def buffers : Outgoing → List (List UInt8)
  | message m => m.encode.out
  | ping header => (encodeFrame header csping .ePingFrame).out
  | pong header => (encodeFrame header cspong .ePongFrame).out

theorem length_csping_lt : csping.length < SHORT_LENGTH := by decide

theorem length_cspong_lt : cspong.length < SHORT_LENGTH := by decide

def frames : Outgoing → List Frame
  | message m => m.frames
  | ping header =>
    [controlFrame header .ePingFrame (xorMask csping) (length_xorMask_lt_short length_csping_lt)]
  | pong header =>
    [controlFrame header .ePongFrame (xorMask cspong) (length_xorMask_lt_short length_cspong_lt)]

/-- It is one frame. -/
def Single : Outgoing → Prop
  | message m => m.payload.length < SLICE_SIZE
  | ping _ | pong _ => True

/-- It comes out of a decoder as it went in. -/
def RoundTrips : Outgoing → Prop
  | message m => m.RoundTrips
  | ping _ | pong _ => True

theorem buffers_eq (o : Outgoing) : o.buffers = o.frames.map Frame.wire := by
  cases o with
  | message m => exact congrArg Traced.out m.encode_eq
  | ping header =>
      rw [buffers, encodeFrame_control header (by decide) (.inl rfl), frames, List.map_singleton,
        wire_controlFrame, length_xorMask]
  | pong header =>
      rw [buffers, encodeFrame_control header (by decide) (.inr (.inl rfl)), frames, List.map_singleton,
        wire_controlFrame, length_xorMask]

theorem mask_frames {o : Outgoing} {f : Frame} (hf : f ∈ o.frames) : f.head.mask = 1 := by
  cases o with
  | message m => exact m.mask_frames hf
  | ping header | pong header =>
      rw [List.mem_singleton.mp hf]
      rfl

theorem flatMap_buffers (os : List Outgoing) :
    os.flatMap buffers = (os.flatMap frames).map Frame.wire := by
  rw [List.map_flatMap]
  exact congrArg (os.flatMap ·) (funext buffers_eq)

end Outgoing

/-- The frames of a message that comes out as it went in. -/
theorem Message.replay_frames (m : Message) (h : m.RoundTrips) (acc : List UInt8) :
    Fragment.replay acc (m.frames.map Frame.fragment) = [m.payload] := by
  by_cases hlen : m.payload.length < SLICE_SIZE
  · rw [m.frames_of_lt hlen, List.map_singleton, m.fragment_dataFrame]
    rfl
  have hlen' := Nat.le_of_not_lt hlen
  have hlast : 0 < m.lastlen := (h.resolve_left hlen).1
  have hdelivered := m.delivered_eq_iff.mpr h
  rw [delivered, if_neg hlen, if_pos hlast] at hdelivered
  rcases Nat.exists_eq_succ_of_ne_zero (Nat.ne_of_gt (Nat.div_pos hlen' (by decide))) with ⟨n, hn⟩
  have hslice : m.slice = n + 1 + 1 := by rw [slice, if_pos hlast, hn]
  rcases m.replay_fullSlices acc n (by omega) with ⟨hreplay, hpending⟩
  rw [m.frames_of_le hlen', hslice, List.range_succ, List.map_append, List.map_append,
    Fragment.replay_append, hreplay, hpending, List.map_singleton, List.map_singleton,
    m.fragment_sliceFrame_last (i := n + 1) (by omega) (by omega)]
  rw [hn] at hdelivered
  exact congrArg (fun c => [c]) (Option.some.inj hdelivered)

namespace Outgoing

theorem whole_of_single {o : Outgoing} (h : o.Single) :
    ∃ f : Frame, o.frames = [f] ∧ f.fragment = .whole o.payload := by
  have hcontrol : ∀ (header : WSHead) (type : OpCode) (payload : List UInt8)
      (hlen : payload.length < SHORT_LENGTH), type = .ePingFrame ∨ type = .ePongFrame →
      (controlFrame header type (xorMask payload) (length_xorMask_lt_short hlen)).fragment =
        .whole payload := by
    intro header type payload hlen htype
    have hmask :
        (controlFrame header type (xorMask payload) (length_xorMask_lt_short hlen)).head.mask = 1 := by
      rcases htype with rfl | rfl <;> rfl
    rw [Frame.fragment_whole rfl (opcode_controlHead header _ (htype.imp_right .inl)), Frame.payload,
      if_pos hmask]
    exact congrArg Fragment.whole (xorMask_xorMask payload)
  cases o with
  | message m => exact ⟨_, m.frames_of_lt h, m.fragment_dataFrame _⟩
  | ping header => exact ⟨_, rfl, hcontrol header _ _ length_csping_lt (.inl rfl)⟩
  | pong header => exact ⟨_, rfl, hcontrol header _ _ length_cspong_lt (.inr rfl)⟩

theorem Single.roundTrips {o : Outgoing} (h : o.Single) : o.RoundTrips := by
  cases o with
  | message m => exact .inl h
  | ping | pong => trivial

theorem replay_frames {o : Outgoing} (h : o.RoundTrips) (acc : List UInt8) :
    Fragment.replay acc (o.frames.map Frame.fragment) = [o.payload] := by
  have hsingle : o.Single → Fragment.replay acc (o.frames.map Frame.fragment) = [o.payload] := by
    intro hsingle
    rcases whole_of_single hsingle with ⟨f, hf, hfrag⟩
    rw [hf, List.map_singleton, hfrag]
    rfl
  cases o with
  | message m => exact m.replay_frames h acc
  | ping header | pong header => exact hsingle trivial

theorem replay_flatMap_frames {os : List Outgoing} (h : ∀ o ∈ os, o.RoundTrips) (acc : List UInt8) :
    Fragment.replay acc ((os.flatMap frames).map Frame.fragment) = os.map payload := by
  induction os generalizing acc with
  | nil => rfl
  | cons o os ih =>
      rcases List.forall_mem_cons.mp h with ⟨ho, hos⟩
      rw [List.flatMap_cons, List.map_append, Fragment.replay_append, replay_frames ho, ih hos,
        List.map_cons]
      rfl

end Outgoing

/-! ## What is received -/

/-- What a decoder accepts of masked frames are whole ones, wherever the reads have been cut. -/
theorem frames_of_acceptsAll {acc acc' : List UInt8} {reads : List (List UInt8)} {calls : List FrameCall}
    (h : AcceptsAll acc reads calls acc') {fs : List Frame} (hmask : ∀ f ∈ fs, f.head.mask = 1)
    (hpre : reads.flatten <+: wires fs) :
    ∃ front, front <+: fs ∧ reads.flatten = wires front ∧
      calls = (Fragment.replay acc (front.map Frame.fragment)).map FrameCall.of := by
  induction h generalizing fs with
  | nil => exact ⟨[], List.nil_prefix, rfl, rfl⟩
  | cons hlen hfirst _ ih =>
      rw [List.flatten_cons] at hpre
      cases hfirst with
      | @frames fs₁ hne hrec =>
          rcases wires_prefix_iff.mp ((List.prefix_append ..).trans hpre) with ⟨gs, rfl⟩
          rw [wires_append, List.prefix_append_right_inj] at hpre
          rcases ih (fun g hg => hmask g (List.mem_append_right _ hg)) hpre with ⟨front, hfront, heq, rfl⟩
          refine ⟨fs₁ ++ front, (List.prefix_append_right_inj _).mpr hfront, ?_, ?_⟩
          · rw [List.flatten_cons, heq, wires_append]
          · rw [List.map_append, Fragment.replay_append, List.map_append]
      | @cut fs₁ tail header n hrec hunseen =>
          rw [List.append_assoc] at hpre
          rcases wires_prefix_iff.mp ((List.prefix_append ..).trans hpre) with ⟨gs, rfl⟩
          rw [wires_append, List.prefix_append_right_inj] at hpre
          -- a masked frame is looked at
          exfalso
          rcases take_of_readHead hunseen.head with ⟨hlen, htake⟩
          cases gs with
          | nil =>
              have hnil := List.prefix_nil.mp hpre
              exact hunseen.ne_nil (List.append_eq_nil_iff.mp hnil).1
          | cons g gs =>
              rcases hpre with ⟨rest, hrest⟩
              have hbytes : header.toBytes = g.head.toBytes := by
                have hfront := congrArg (List.take 2) hrest
                rw [List.append_assoc, List.take_append_of_le_length hlen, htake] at hfront
                rw [hfront]
                simp [Frame.wire, List.append_assoc, WSHead.toBytes]
              rcases toBytes_injective hbytes
              exact hunseen.unmasked (hmask g (by simp))

/-- The frames of blocks that are buffers of `encodeFrame`. -/
theorem exists_frames {blocks : List (Nat × List UInt8)} {outgoing : Nat → List Outgoing}
    (h : ∀ tid, (sentBy tid blocks).Sublist ((outgoing tid).flatMap Outgoing.buffers)) :
    ∃ kept : List (Nat × Frame), blocks = kept.map fun x => (x.1, x.2.wire) := by
  have hrange : blocks ∈ Set.range (List.map fun x : Nat × Frame => (x.1, x.2.wire)) := by
    rw [Set.range_list_map]
    rintro ⟨tid, data⟩ hmem
    have hdata := (h tid).subset (mem_sentBy hmem)
    rw [Outgoing.flatMap_buffers] at hdata
    rcases List.mem_map.mp hdata with ⟨f, -, rfl⟩
    exact ⟨(tid, f), rfl⟩
  rcases hrange with ⟨kept, rfl⟩
  exact ⟨kept, rfl⟩

theorem wire_map_injective : Function.Injective (List.map Frame.wire) :=
  List.map_injective_iff.mpr fun _ _ => Frame.wire_injective

theorem flatMap_snd_wire (kept : List (Nat × Frame)) :
    (kept.map fun x => (x.1, x.2.wire)).flatMap Prod.snd = wires (kept.map Prod.snd) := by
  rw [List.flatMap_map, wires, List.map_map]
  exact List.flatMap_def ..

/-- Everybody masks. -/
theorem mask_kept {kept : List (Nat × Frame)} {outgoing : Nat → List Outgoing}
    (hkept : ∀ tid, (sentBy tid kept).Sublist ((outgoing tid).flatMap Outgoing.frames)) :
    ∀ x ∈ kept, x.2.head.mask = 1 := by
  rintro ⟨tid, f⟩ hmem
  rcases List.mem_flatMap.mp ((hkept tid).subset (mem_sentBy hmem)) with ⟨o, -, ho⟩
  exact Outgoing.mask_frames ho

/-- What a decoder has delivered of a stream of frames. -/
theorem front_of_decodeCalls {kept : List (Nat × Frame)} (hmask : ∀ x ∈ kept, x.2.head.mask = 1)
    {mem : Nat → UInt8} {reads : List (List UInt8)} (hreads : reads.flatten <+: wires (kept.map Prod.snd))
    {calls : List FrameCall} {q : WSProtocol} (h : decodeCalls (.new mem) reads = ⟨calls, .ok q⟩) :
    ∃ front, front <+: kept ∧ reads.flatten = wires (front.map Prod.snd) ∧
      calls = (Fragment.replay [] (front.map fun x => x.2.fragment)).map FrameCall.of := by
  have hmask' : ∀ f ∈ kept.map Prod.snd, f.head.mask = 1 := by
    simpa using fun f tid hmem => hmask (tid, f) hmem
  have haccepts : AcceptsAll [] reads calls q.reassembled :=
    (decodeCalls_accepts_iff (p := .new mem) (Nat.zero_le _) reads calls q.reassembled).mp ⟨q, h, rfl⟩
  rcases frames_of_acceptsAll haccepts hmask' hreads with ⟨fs, hfs, hbytes, hcalls⟩
  rcases List.prefix_map_iff.mp hfs with ⟨front, hfront, rfl⟩
  refine ⟨front, hfront, hbytes, ?_⟩
  rw [hcalls, List.map_map]
  rfl

/-- Threads make calls of `encodeFrame` over one connection. What has gone out, and what the buffer holds,
are whole frames, each sent once by one of the threads, and those of one thread in its order. Whatever
part of them a decoder of the peer has been given, in reads of any sizes: if it has returned, it has been
given whole frames, and has delivered what they carry. -/
theorem channelFrames (threadId fd : Nat) {conn : Connection} (hempty : conn.writeBuffer = [])
    {outgoing : Nat → List Outgoing} {steps : List SharedStep}
    (hcalls : ∀ tid, sentBy tid (sendCalls steps) <+: (outgoing tid).flatMap Outgoing.buffers)
    (hlegal : sharedMachine.Legal (.start threadId fd conn) steps) {s : SharedConn}
    {out : List SharedEvent}
    (hrun : sharedMachine.run (.start threadId fd conn) steps = ⟨out, .ok s⟩) :
    ∃ kept : List (Nat × Frame),
      outputOf out ++ s.conn.writeBuffer = wires (kept.map Prod.snd) ∧
      (∀ tid, (sentBy tid kept).Sublist ((outgoing tid).flatMap Outgoing.frames)) ∧
      ∀ mem reads calls q, reads.flatten <+: outputOf out →
        decodeCalls (.new mem) reads = ⟨calls, .ok q⟩ →
        ∃ front, front <+: kept ∧ reads.flatten = wires (front.map Prod.snd) ∧
          calls = (Fragment.replay [] (front.map fun x => x.2.fragment)).map FrameCall.of := by
  have hsound := SharedConn.sound_start threadId fd conn
  rcases SharedConn.bytes_run hsound hlegal hrun with ⟨blocks, hsub, hbytes, -⟩
  have hsent : ∀ tid, (sentBy tid blocks).Sublist ((outgoing tid).flatMap Outgoing.buffers) := by
    intro tid
    have hran := SharedConn.ranBlocks_prefix hsound (fun _ => rfl) hlegal hrun tid
    exact (sentBy_sublist tid hsub).trans (hran.trans (hcalls tid)).sublist
  rcases exists_frames hsent with ⟨kept, rfl⟩
  rw [flatMap_snd_wire] at hbytes
  have hkept : ∀ tid, (sentBy tid kept).Sublist ((outgoing tid).flatMap Outgoing.frames) := by
    intro tid
    have hwires := hsent tid
    rw [sentBy_map, Outgoing.flatMap_buffers] at hwires
    rcases List.sublist_map_iff.mp hwires with ⟨fs, hfs, heq⟩
    rwa [wire_map_injective heq]
  have hstream : outputOf out ++ s.conn.writeBuffer = wires (kept.map Prod.snd) := by
    rw [hbytes]
    exact congrArg (· ++ _) hempty
  refine ⟨kept, hstream, hkept, ?_⟩
  intro mem reads calls q hreads hdecode
  exact front_of_decodeCalls (mask_kept hkept) (hreads.trans ⟨_, hstream⟩) hdecode

/-- A text in one frame. -/
def hello : Outgoing := .message (.text [104] (List.cons_ne_nil _ _))
def hi : Outgoing := .message (.text [104, 105] (List.cons_ne_nil _ _))

def helloBlock : List UInt8 := [17, 3, 2, 8, 32, 128, 106]
def hiBlock : List UInt8 := [17, 5, 2, 8, 32, 128, 106, 97]

/-- A heartbeat of either side. -/
def pingBeat : Outgoing := .ping ⟨0, 0, 0, 0, 0⟩
def pongBeat : Outgoing := .pong ⟨0, 0, 0, 0, 0⟩

def pingBlock : List UInt8 := [145, 9, 2, 8, 32, 128, 82, 65, 110, 199]
def pongBlock : List UInt8 := [161, 9, 2, 8, 32, 128, 82, 71, 110, 199]

/-- One thread sends a heartbeat and a text, and another one a text. -/
def talkers (beat : Outgoing) (tid : Nat) : List Outgoing :=
  if tid = 1 then [beat, hello] else if tid = 2 then [hi] else []

/-- They do so in one run, in which everything goes out. -/
def talk (block : List UInt8) : List SharedStep := threeBlocks block hiBlock helloBlock 7

theorem sendCalls_talk {beat : Outgoing} {block : List UInt8} (hbeat : beat.buffers = [block]) (tid : Nat) :
    sentBy tid (sendCalls (talk block)) <+: (talkers beat tid).flatMap Outgoing.buffers := by
  have hcalls : sendCalls (talk block) = [(1, block), (2, hiBlock), (1, helloBlock)] := rfl
  rw [hcalls]
  by_cases hone : tid = 1
  · subst hone
    rw [talkers, if_pos rfl, List.flatMap_cons, hbeat]
    exact List.prefix_refl [block, helloBlock]
  by_cases htwo : tid = 2
  · subst htwo
    exact List.prefix_refl [hiBlock]
  · rw [sentBy_cons_of_ne (Ne.symm hone), sentBy_cons_of_ne (Ne.symm htwo), sentBy_cons_of_ne (Ne.symm hone)]
    exact List.nil_prefix

theorem channelFrames_talk :
    ∃ out s, sharedMachine.run (.start 0 7 openConn) (talk pingBlock) = ⟨out, .ok s⟩ ∧
      ∃ kept : List (Nat × Frame),
        outputOf out ++ s.conn.writeBuffer = wires (kept.map Prod.snd) ∧
        (∀ tid, (sentBy tid kept).Sublist ((talkers pingBeat tid).flatMap Outgoing.frames)) ∧
        ∀ mem reads calls q, reads.flatten <+: outputOf out →
          decodeCalls (.new mem) reads = ⟨calls, .ok q⟩ →
          ∃ front, front <+: kept ∧ reads.flatten = wires (front.map Prod.snd) ∧
            calls = (Fragment.replay [] (front.map fun x => x.2.fragment)).map FrameCall.of :=
  ⟨_, _, rfl, channelFrames 0 7 rfl (sendCalls_talk rfl)
    (Machine.legal_of_restrict (legal_threeBlocks _ _ _ _)) rfl⟩

/-- The frames of the blocks that have gone out or are in the buffer, if none has been dropped. -/
theorem exists_kept (threadId fd : Nat) {conn : Connection} (hempty : conn.writeBuffer = [])
    {outgoing : Nat → List Outgoing} {steps : List SharedStep}
    (hcalls : ∀ tid, sentBy tid (sendCalls steps) <+: (outgoing tid).flatMap Outgoing.buffers)
    (hlegal : (sharedMachine.restrict SharedConn.TakesBlock).Legal (.start threadId fd conn) steps)
    {s : SharedConn} {out : List SharedEvent}
    (hrun : sharedMachine.run (.start threadId fd conn) steps = ⟨out, .ok s⟩) :
    ∃ kept : List (Nat × Frame), outputOf out ++ s.conn.writeBuffer = wires (kept.map Prod.snd) ∧
      (∀ tid, sentBy tid kept <+: (outgoing tid).flatMap Outgoing.frames) ∧
      ∀ tid, sentBy tid (ranBlocks out) = (sentBy tid kept).map Frame.wire := by
  have hsound := SharedConn.sound_start threadId fd conn
  have hlegal' := Machine.legal_of_restrict hlegal
  rcases SharedConn.bytes_run hsound hlegal' hrun with ⟨blocks, -, hbytes, hall⟩
  rcases hall hlegal
  have hsent : ∀ tid, sentBy tid (ranBlocks out) <+: (outgoing tid).flatMap Outgoing.buffers :=
    fun tid => (SharedConn.ranBlocks_prefix hsound (fun _ => rfl) hlegal' hrun tid).trans (hcalls tid)
  rcases exists_frames fun tid => (hsent tid).sublist with ⟨kept, hblocks⟩
  rw [hblocks, flatMap_snd_wire] at hbytes
  have hwires : ∀ tid, sentBy tid (ranBlocks out) = (sentBy tid kept).map Frame.wire :=
    fun tid => by rw [hblocks, sentBy_map]
  refine ⟨kept, ?_, ?_, hwires⟩
  · rw [hbytes]
    exact congrArg (· ++ _) hempty
  · intro tid
    have hprefix := hsent tid
    rwa [hwires, Outgoing.flatMap_buffers,
      List.prefix_map_iff_of_injective fun _ _ => Frame.wire_injective] at hprefix

/-- What a decoder that is kept delivers of frames, with their senders. -/
def deliveriesBy (front : List (Nat × Frame)) : List (Nat × List UInt8) :=
  Fragment.replayBy [] (front.map fun x => (x.1, x.2.fragment))

theorem map_snd_deliveriesBy (front : List (Nat × Frame)) :
    (deliveriesBy front).map Prod.snd = Fragment.replay [] (front.map fun x => x.2.fragment) := by
  rw [deliveriesBy, Fragment.map_snd_replayBy, List.map_map]
  rfl

/-- A frame of a thread that sends no slices. -/
theorem exists_whole {front : List (Nat × Frame)} {outgoing : Nat → List Outgoing}
    (hfront : ∀ tid, sentBy tid front <+: (outgoing tid).flatMap Outgoing.frames) {x : Nat × Frame}
    (hmem : x ∈ front) (hsingle : ∀ o ∈ outgoing x.1, o.Single) : ∃ c, x.2.fragment = .whole c := by
  rcases List.mem_flatMap.mp ((hfront x.1).subset (mem_sentBy hmem)) with ⟨o, ho, hof⟩
  rcases Outgoing.whole_of_single (hsingle o ho) with ⟨g, hg, hfrag⟩
  rw [hg, List.mem_singleton] at hof
  exact ⟨_, hof ▸ hfrag⟩

/-- The deliveries of one thread are those of its own frames, if only one thread sends in slices. -/
theorem sentBy_deliveriesBy {front : List (Nat × Frame)} {outgoing : Nat → List Outgoing} {slicing : Nat}
    (hfront : ∀ tid, sentBy tid front <+: (outgoing tid).flatMap Outgoing.frames)
    (hsingle : ∀ tid, tid ≠ slicing → ∀ o ∈ outgoing tid, o.Single) (tid : Nat) :
    sentBy tid (deliveriesBy front) = Fragment.replay [] ((sentBy tid front).map Frame.fragment) := by
  have hwhole : ∀ x ∈ front.map (fun x => (x.1, x.2.fragment)), x.1 ≠ slicing →
      ∃ c, x.2 = Fragment.whole c := by
    intro x hx hne
    rcases List.mem_map.mp hx with ⟨y, hy, rfl⟩
    exact exists_whole hfront hy (hsingle y.1 hne)
  rw [deliveriesBy, Fragment.sentBy_replayBy hwhole, sentBy_map]

theorem deliveriesBy_prefix {front kept : List (Nat × Frame)} {outgoing : Nat → List Outgoing} {slicing : Nat}
    (hround : ∀ tid, ∀ o ∈ outgoing tid, o.RoundTrips)
    (hsingle : ∀ tid, tid ≠ slicing → ∀ o ∈ outgoing tid, o.Single)
    (hkept : ∀ tid, sentBy tid kept <+: (outgoing tid).flatMap Outgoing.frames) (hfront : front <+: kept)
    (tid : Nat) : sentBy tid (deliveriesBy front) <+: (outgoing tid).map Outgoing.payload := by
  have hsent : ∀ tid, sentBy tid front <+: (outgoing tid).flatMap Outgoing.frames :=
    fun tid => (sentBy_prefix_sentBy tid hfront).trans (hkept tid)
  rw [sentBy_deliveriesBy hsent hsingle]
  rcases hsent tid with ⟨later, hlater⟩
  rw [← Outgoing.replay_flatMap_frames (hround tid) [], ← hlater, List.map_append,
    Fragment.replay_append]
  exact List.prefix_append ..

/-- When everything has gone out and been read. -/
theorem deliveriesBy_all {front kept : List (Nat × Frame)} {outgoing : Nat → List Outgoing} {slicing : Nat}
    (hround : ∀ tid, ∀ o ∈ outgoing tid, o.RoundTrips)
    (hsingle : ∀ tid, tid ≠ slicing → ∀ o ∈ outgoing tid, o.Single)
    (hkept : ∀ tid, sentBy tid kept <+: (outgoing tid).flatMap Outgoing.frames) (hfront : front <+: kept)
    (hread : wires (front.map Prod.snd) = wires (kept.map Prod.snd)) {tid : Nat}
    (hran : (sentBy tid kept).map Frame.wire = (outgoing tid).flatMap Outgoing.buffers) :
    sentBy tid (deliveriesBy front) = (outgoing tid).map Outgoing.payload := by
  have hall : front = kept := by
    apply hfront.eq_of_length
    have hframes := congrArg List.length (prefixCode_wire.flatMap_injective hread)
    rwa [List.length_map, List.length_map] at hframes
  rw [Outgoing.flatMap_buffers] at hran
  rw [hall, sentBy_deliveriesBy hkept hsingle, wire_map_injective hran,
    Outgoing.replay_flatMap_frames (hround tid)]

/-- If one thread alone sends messages in slices, and no `sendInReactor` finds the connection closed, busy
or refused, then whatever a decoder of the peer returns on, it has delivered the messages of every thread
unchanged and in their order, as far as they have been read; all of them, when all has gone out and been
read. -/
theorem channelMessages (threadId fd slicing : Nat) {conn : Connection} (hempty : conn.writeBuffer = [])
    {outgoing : Nat → List Outgoing} {steps : List SharedStep}
    (hcalls : ∀ tid, sentBy tid (sendCalls steps) <+: (outgoing tid).flatMap Outgoing.buffers)
    (hround : ∀ tid, ∀ o ∈ outgoing tid, o.RoundTrips)
    (hsingle : ∀ tid, tid ≠ slicing → ∀ o ∈ outgoing tid, o.Single)
    (hlegal : (sharedMachine.restrict SharedConn.TakesBlock).Legal (.start threadId fd conn) steps)
    {s : SharedConn} {out : List SharedEvent}
    (hrun : sharedMachine.run (.start threadId fd conn) steps = ⟨out, .ok s⟩)
    {mem : Nat → UInt8} {reads : List (List UInt8)} (hreads : reads.flatten <+: outputOf out)
    {calls : List FrameCall} {q : WSProtocol} (hdecode : decodeCalls (.new mem) reads = ⟨calls, .ok q⟩) :
    ∃ delivered : List (Nat × List UInt8), calls = delivered.map (fun x => FrameCall.of x.2) ∧
      (∀ tid, sentBy tid delivered <+: (outgoing tid).map Outgoing.payload) ∧
      (reads.flatten = outputOf out → s.conn.writeBuffer = [] →
        ∀ tid, sentBy tid (ranBlocks out) = (outgoing tid).flatMap Outgoing.buffers →
          sentBy tid delivered = (outgoing tid).map Outgoing.payload) := by
  rcases exists_kept threadId fd hempty hcalls hlegal hrun with ⟨kept, hstream, hkept, hran⟩
  have hmask := mask_kept fun tid => (hkept tid).sublist
  rcases front_of_decodeCalls hmask (hreads.trans ⟨_, hstream⟩) hdecode with ⟨front, hfront, hbytes, hcalls'⟩
  refine ⟨deliveriesBy front, ?_, ?_, ?_⟩
  · rw [hcalls', ← map_snd_deliveriesBy, List.map_map]
    rfl
  · exact deliveriesBy_prefix hround hsingle hkept hfront
  · intro hread hflushed tid hall
    rw [hflushed, List.append_nil, ← hread, hbytes] at hstream
    exact deliveriesBy_all hround hsingle hkept hfront hstream (hran tid ▸ hall)

theorem single_talkers (beat : Outgoing) (hbeat : beat.Single) (tid : Nat) :
    ∀ o ∈ talkers beat tid, o.Single := by
  have hhello : hello.Single := show 1 < SLICE_SIZE by decide
  have hhi : hi.Single := show 2 < SLICE_SIZE by decide
  rw [talkers]
  split_ifs
  · simp [hbeat, hhello]
  · simp [hhi]
  · simp

theorem run_talk {block : List UInt8} (hblock : block = pingBlock ∨ block = pongBlock) :
    ∃ out s, sharedMachine.run (.start 0 7 openConn) (talk block) = ⟨out, .ok s⟩ ∧
      outputOf out = block ++ (hiBlock ++ helloBlock) := by
  rcases hblock with rfl | rfl <;> exact ⟨_, _, rfl, rfl⟩

theorem decodeCalls_talk :
    ∃ q, decodeCalls (.new fun _ => 0) [pingBlock ++ hiBlock, helloBlock] =
      ⟨[.of csping, .of [104, 105], .of [104]], .ok q⟩ := ⟨_, rfl⟩

theorem channelMessages_talk :
    ∃ out s, sharedMachine.run (.start 0 7 openConn) (talk pingBlock) = ⟨out, .ok s⟩ ∧
      ∃ delivered : List (Nat × List UInt8),
        [FrameCall.of csping, .of [104, 105], .of [104]] = delivered.map (fun x => FrameCall.of x.2) ∧
        (∀ tid, sentBy tid delivered <+: (talkers pingBeat tid).map Outgoing.payload) ∧
        ([pingBlock ++ hiBlock, helloBlock].flatten = outputOf out → s.conn.writeBuffer = [] →
          ∀ tid, sentBy tid (ranBlocks out) = (talkers pingBeat tid).flatMap Outgoing.buffers →
            sentBy tid delivered = (talkers pingBeat tid).map Outgoing.payload) := by
  rcases run_talk (.inl rfl) with ⟨out, s, hrun, hout⟩
  rcases decodeCalls_talk with ⟨q, hdecode⟩
  have hread : [pingBlock ++ hiBlock, helloBlock].flatten <+: outputOf out := by simp [hout]
  exact ⟨out, s, hrun, channelMessages 0 7 1 rfl (sendCalls_talk rfl)
    (fun tid o ho => (single_talkers pingBeat trivial tid o ho).roundTrips)
    (fun tid _ => single_talkers pingBeat trivial tid)
    (legal_threeBlocks _ _ _ _) hrun hread hdecode⟩

end WebsocketCpp
