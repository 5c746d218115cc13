import WebsocketCpp.Misc.PrefixCode
import WebsocketCpp.Websocket.Proofs.DecodeFront

/-!
# What the decoder accepts

`decoderAccepts`: a call of `decodeFrame` (`websocket/WSProtocol.cpp:300-418`) returns exactly on
complete frames that are received, which may be followed by one more frame that is cut off, if no
branch looks at what is missing of it. The callbacks and the bytes kept are those that the frames ask
for. `wiresReadOneWay`: no bytes can be read as frames in two ways.
-/

namespace WebsocketCpp

open Traced (Sim)

/-! ## Frames are a prefix code -/

theorem ushortBytes_injective {m n : Nat} (hm : m < 2 ^ 16) (hn : n < 2 ^ 16)
    (heq : ushortBytes m = ushortBytes n) : m = n := by
  have hread : (readUShort (ushortBytes m ++ [])).result = (readUShort (ushortBytes n ++ [])).result := by
    rw [heq]
  rw [readUShort_ushortBytes hm, readUShort_ushortBytes hn] at hread
  exact Except.ok.inj hread

/-- The header and the length say how long a frame is. -/
theorem Frame.length_wire_eq {f g : Frame} {xs ys : List UInt8} (heq : f.wire ++ xs = g.wire ++ ys) :
    f.head = g.head ∧ f.wire.length = g.wire.length := by
  have hhead : f.head = g.head := by
    apply toBytes_injective
    have htake := congrArg (List.take 2) heq
    simpa [Frame.wire, List.append_assoc, WSHead.toBytes] using htake
  refine ⟨hhead, ?_⟩
  rw [Frame.length_wire, Frame.length_wire]
  by_cases hlong : f.head.PayloadLen.toNat = SHORT_LENGTH
  · have hlong' : g.head.PayloadLen.toNat = SHORT_LENGTH := hhead ▸ hlong
    have htake := congrArg (fun bytes => (bytes.drop 2).take 2) heq
    have hlen : ushortBytes f.body.length = ushortBytes g.body.length := by
      simpa [Frame.wire, List.append_assoc, Frame.lengthField, hlong, hlong', WSHead.toBytes, ushortBytes]
        using htake
    have hbody := ushortBytes_injective f.length_body_lt g.length_body_lt hlen
    simp [Frame.lengthField, hlong, hlong', ushortBytes, hbody]
  · have hlong' : g.head.PayloadLen.toNat ≠ SHORT_LENGTH := hhead ▸ hlong
    have hf := f.length_body (Nat.lt_of_le_of_ne f.payloadLen_le hlong)
    have hg := g.length_body (Nat.lt_of_le_of_ne g.payloadLen_le hlong')
    simp [Frame.lengthField, hlong', hf, hg, hhead]

theorem Frame.length_lengthField_eq {f g : Frame} (h : f.head = g.head) :
    f.lengthField.length = g.lengthField.length := by
  rw [Frame.lengthField, Frame.lengthField, h]
  split <;> rfl

theorem Frame.wire_injective {f g : Frame} (heq : f.wire = g.wire) : f = g := by
  have hhead : f.head = g.head := (@Frame.length_wire_eq f g [] [] (by rw [heq])).1
  have hfront : (f.head.toBytes ++ f.lengthField).length = (g.head.toBytes ++ g.lengthField).length := by
    simp [Frame.length_lengthField_eq hhead]
  rw [Frame.wire, Frame.wire, List.append_assoc, List.append_assoc (g.head.toBytes ++ g.lengthField)] at heq
  rcases List.append_inj heq hfront with ⟨-, hrest⟩
  rcases List.append_inj hrest (f.length_key.trans g.length_key.symm) with ⟨hkey, hbody⟩
  rcases f with ⟨_, _, _, _, _, _, _⟩
  rcases g with ⟨_, _, _, _, _, _, _⟩
  simp only at hhead hkey hbody
  subst hhead hkey hbody
  rfl

theorem prefixCode_wire : PrefixCode Frame.wire where
  ne_nil f := f.wire_ne_nil
  eq_of_prefix := by
    rintro f g ⟨rest, hrest⟩
    have hlen := (@Frame.length_wire_eq f g rest [] (by simpa using hrest)).2
    have hnil : rest = [] := by
      have hsum := congrArg List.length hrest
      rw [List.length_append] at hsum
      exact List.length_eq_zero_iff.mp (by omega)
    rw [hnil, List.append_nil] at hrest
    exact Frame.wire_injective hrest

/-- What stands at the front of a stream of frames is frames exactly if it is its first frames. -/
theorem wires_prefix_iff {fs gs : List Frame} : wires fs <+: wires gs ↔ fs <+: gs :=
  prefixCode_wire.flatMap_prefix_iff

/-- The layout of a frame determines where it ends: no bytes can be read as frames in two ways, and the
frames at the front of a stream do not depend on what follows. -/
theorem wiresReadOneWay (fs gs : List Frame) :
    (wires fs = wires gs ↔ fs = gs) ∧ (wires fs <+: wires gs ↔ fs <+: gs) ∧
    (fs.length = gs.length →
      ∀ rest rest', wires fs ++ rest = wires gs ++ rest' ↔ fs = gs ∧ rest = rest') := by
  refine ⟨⟨prefixCode_wire.flatMap_injective, congrArg wires⟩, wires_prefix_iff, ?_⟩
  intro hlen rest rest'
  refine ⟨prefixCode_wire.flatMap_append_cancel hlen, ?_⟩
  rintro ⟨rfl, rfl⟩
  rfl

/-! ## Frames that are cut off -/

/-- A frame is cut off at the front of the data, and no branch looks at what is missing: FIN == 1, no mask
bit, and nothing to copy if it is the last one of a message. -/
structure Unseen (tail : List UInt8) (header : WSHead) (n : Nat) : Prop where
  head : readHead tail = pure header
  code : header.PayloadLen.toNat ≤ SHORT_LENGTH
  declared : declaredLen header tail = .ok n
  cut : tail.length < payloadOffset header + n
  fin : header.FIN = 1
  unmasked : header.mask ≠ 1
  uncopied : header.Opcode = OpCode.eContinueFrame.code → n = 0

/-- The callback for such a frame: it is told the declared length. -/
def unseenCall (acc tail : List UInt8) (header : WSHead) (n : Nat) : FrameCall :=
  if header.Opcode = OpCode.eContinueFrame.code then .of acc
  else ⟨(tail.drop (payloadOffset header)).take n, n⟩

/-- What follows such a frame in the loop: nothing, if there is room for no bytes. -/
def afterUnseen (tail : List UInt8) (header : WSHead) (n : Nat) (acc : List UInt8) : Decode (List UInt8) := do
  Traced.require (header.Opcode = OpCode.eContinueFrame.code → acc.length ≤ MAX_FRAMESIZE) .writePastBuffer
  ⟨[unseenCall acc tail header n], .ok acc⟩

theorem Unseen.ne_nil {tail : List UInt8} {header : WSHead} {n : Nat} (h : Unseen tail header n) :
    tail ≠ [] := by
  rintro rfl
  have hlen := (take_of_readHead h.head).1
  simp at hlen

theorem decodeIter_unseen {tail : List UInt8} {header : WSHead} {n : Nat} (h : Unseen tail header n)
    (p : WSProtocol) :
    Sim (AfterIter []) (decodeIter p tail) (afterUnseen tail header n p.reassembled) := by
  have hrest : remaining (tail.drop (payloadOffset header + n)) = none := by
    rw [List.drop_eq_nil_of_le (Nat.le_of_lt h.cut)]
    rfl
  have hunmask : ∀ payl payll, unmaskPayload header payl payll = pure payl := fun payl payll => by
    rw [unmaskPayload, if_neg h.unmasked]
  simp only [decodeIter, h.head, pure_bind, if_pos h.fin, locatePayload_eq h.code h.declared, hunmask,
    hrest, afterUnseen, unseenCall, length_reassembled]
  by_cases hop : header.Opcode = OpCode.eContinueFrame.code
  · simp only [h.uncopied hop, hop, if_true, forall_const]
    by_cases hfit : p.framePos ≤ MAX_FRAMESIZE
    · rcases copyPayload_fits p [] (tail.drop (payloadOffset header)) hfit with ⟨q, hq, hre, hpos⟩
      rw [List.nil_append, List.length_nil] at hq
      rw [List.append_nil] at hre
      have hlen : q.framePos = p.reassembled.length := by rw [← hre, length_reassembled]
      rw [hq, pure_bind, Traced.require_true hfit, pure_bind, hlen, hre]
      exact ⟨rfl, hre, rfl⟩
    · have hfull := copyPayload_overflow p [] (tail.drop (payloadOffset header)) hfit
      rw [List.nil_append, List.length_nil] at hfull
      rw [hfull, Traced.require_false hfit, Traced.fail_bind, Traced.fail_bind]
      exact Sim.fail _
  · rw [if_neg hop, if_neg hop, Traced.require_true fun hcont => absurd hcont hop, pure_bind]
    exact ⟨rfl, rfl, rfl⟩

theorem decodeLoop_unseen {tail : List UInt8} {header : WSHead} {n : Nat} (h : Unseen tail header n)
    (p : WSProtocol) {m : Nat} (hm : 0 < m) :
    Sim Holds (decodeLoop m p tail) (afterUnseen tail header n p.reassembled) := by
  rcases Nat.exists_eq_succ_of_ne_zero (Nat.ne_of_gt hm) with ⟨m, rfl⟩
  rw [decodeLoop, ← bind_pure (afterUnseen tail header n p.reassembled)]
  apply Sim.bind (decodeIter_unseen h p)
  rintro ⟨q, next⟩ acc ⟨hq, hnext⟩
  cases hnext
  exact Sim.pure hq

/-! ## Whole calls -/

/-- What a call accepts: the callbacks and the bytes that are kept. -/
inductive Accepts (acc : List UInt8) : List UInt8 → List FrameCall → List UInt8 → Prop
  | frames {fs : List Frame} : fs ≠ [] → Received acc fs →
      Accepts acc (wires fs) ((Fragment.replay acc (fs.map Frame.fragment)).map FrameCall.of)
        (Fragment.pending acc (fs.map Frame.fragment))
  | cut {fs : List Frame} {tail : List UInt8} {header : WSHead} {n : Nat} : Received acc fs →
      Unseen tail header n →
      Accepts acc (wires fs ++ tail)
        ((Fragment.replay acc (fs.map Frame.fragment)).map FrameCall.of ++
          [unseenCall (Fragment.pending acc (fs.map Frame.fragment)) tail header n])
        (Fragment.pending acc (fs.map Frame.fragment))

theorem Received.append {acc : List UInt8} {fs gs : List Frame} (h : Received acc fs)
    (h' : Received (Fragment.pending acc (fs.map Frame.fragment)) gs) : Received acc (fs ++ gs) := by
  refine ⟨?_, ?_⟩
  · intro f hf
    exact (List.mem_append.mp hf).elim (h.1 f) (h'.1 f)
  · rw [List.map_append]
    exact (Fragment.allFit_append ..).mpr ⟨h.2, h'.2⟩

/-- What is received leaves the buffer no fuller than it can be. -/
theorem Received.length_pending_le {acc : List UInt8} {fs : List Frame} (h : Received acc fs)
    (hacc : acc.length ≤ MAX_FRAMESIZE) :
    (Fragment.pending acc (fs.map Frame.fragment)).length ≤ MAX_FRAMESIZE := by
  induction fs generalizing acc with
  | nil => exact hacc
  | cons f fs ih =>
      rcases received_cons.mp h with ⟨⟨-, hfit⟩, hrest⟩
      exact ih hrest ((Fragment.fits_iff hacc f.fragment).mp hfit)

theorem exists_of_sim {x : Decode WSProtocol} {out : List FrameCall} {acc : List UInt8}
    (h : Sim Holds x ⟨out, .ok acc⟩) : ∃ q, x = ⟨out, .ok q⟩ ∧ q.reassembled = acc := by
  rcases h.ok_right rfl with ⟨q, hq, hholds⟩
  have hout : x.out = out := h.out_eq
  refine ⟨q, ?_, hholds⟩
  rw [← hq, ← hout]

/-- Every call that is accepted returns. -/
theorem decodeFrame_of_accepts {p : WSProtocol} (hp : p.framePos ≤ MAX_FRAMESIZE) {data : List UInt8}
    {out : List FrameCall} {acc : List UInt8} (hlen : data.length < MAX_FRAMESIZE)
    (h : Accepts p.reassembled data out acc) :
    ∃ q, decodeFrame p data = ⟨out, .ok q⟩ ∧ q.reassembled = acc := by
  cases h with
  | frames hne hrec =>
      have hsim := decodeFrame_wires p hne hlen
      rw [receiveAll_ok hrec.1 hrec.2] at hsim
      exact exists_of_sim hsim
  | @cut fs tail header n hrec hunseen =>
      have hsim := decodeFrame_wires_append p fs hunseen.ne_nil hlen
        fun q m hm => decodeLoop_unseen hunseen q (Nat.lt_of_le_of_lt (Nat.zero_le _) hm)
      have hroom := hrec.length_pending_le (by rwa [length_reassembled])
      rw [receiveAll_ok hrec.1 hrec.2, Traced.mk_bind, afterUnseen, Traced.require_true fun _ => hroom,
        pure_bind] at hsim
      exact exists_of_sim hsim

/-- A loop that ends has come to an iteration that leaves nothing. -/
theorem reaches_of_ok {n : Nat} {p q : WSProtocol} {data : List UInt8}
    (h : (decodeLoop n p data).result = .ok q) :
    ∃ r rest, Reaches p data r rest ∧ (decodeIter r rest).result = .ok (q, none) := by
  induction n generalizing p data with
  | zero => cases h
  | succ n ih =>
      rcases Traced.result_bind h with ⟨⟨r, next⟩, hiter, hrest⟩
      cases next with
      | none =>
          rcases Except.ok.inj hrest
          exact ⟨p, data, .here, hiter⟩
      | some rest =>
          rcases ih hrest with ⟨r', tail, hreach, hlast⟩
          exact ⟨r', tail, .later hiter hreach, hlast⟩

/-- The last iteration of a call that returns: a frame that is received and nothing behind it, or a frame
that is cut off and not looked at. -/
theorem last_of_ok {p q : WSProtocol} (hp : p.framePos ≤ MAX_FRAMESIZE) {data : List UInt8}
    (h : (decodeIter p data).result = .ok (q, none)) :
    (∃ f : Frame, data = f.wire ∧ Received p.reassembled [f]) ∨ ∃ header n, Unseen data header n := by
  cases front_cases data with
  | short hlen =>
      rw [decodeIter_short p hlen] at h
      cases h
  | noLength header hhead hlong hlen =>
      rw [decodeIter_noLength hhead p hlong hlen] at h
      cases h
  | reserved header hhead hcode =>
      by_cases hfin : header.FIN = 1
      · by_cases hmask : header.mask = 1
        · rw [decodeIter_reserved_masked hhead p hfin hcode hmask] at h
          cases h
        · rcases decodeIter_reserved hhead hp hfin hcode hmask with ⟨r, hr, -⟩
          rw [hr] at h
          cases h
      · rw [decodeIter_shortFragment hhead p hfin (Nat.ne_of_gt hcode)] at h
        cases h
  | cut header n hhead hcode hn hcut =>
      have hfin : header.FIN = 1 := by
        by_contra hfin
        by_cases hlong : header.PayloadLen.toNat = SHORT_LENGTH
        · rw [decodeIter_cut_fragment hhead hn hcut p hfin hlong] at h
          cases h
        · rw [decodeIter_shortFragment hhead p hfin hlong] at h
          cases h
      have hmask : header.mask ≠ 1 := by
        intro hmask
        rw [decodeIter_cut_masked hhead hn hcut hcode p hfin hmask] at h
        cases h
      refine .inr ⟨header, n, hhead, hcode, hn, hcut, hfin, hmask, fun hop => ?_⟩
      by_contra hne
      rw [decodeIter_cut_last hhead hn hcut hcode p hfin hmask hop (Nat.pos_of_ne_zero hne)] at h
      cases h
  | frame f rest hdata =>
      subst hdata
      rcases decodeIter_wire_ok h with ⟨hrec, -, hnext⟩
      have hnil : rest = [] := by
        by_contra hne
        rw [remaining_of_ne_nil hne] at hnext
        cases hnext
      refine .inl ⟨f, by rw [hnil, List.append_nil], received_cons.mpr ⟨hrec, received_nil _⟩⟩

/-- What returns has been accepted. -/
theorem accepts_of_ok {p q : WSProtocol} (hp : p.framePos ≤ MAX_FRAMESIZE) {data : List UInt8}
    (h : (decodeFrame p data).result = .ok q) :
    data.length < MAX_FRAMESIZE ∧ ∃ out acc, Accepts p.reassembled data out acc := by
  by_cases hlen : data.length < MAX_FRAMESIZE
  · rw [decodeFrame, Traced.require_true hlen, pure_bind] at h
    rcases reaches_of_ok h with ⟨r, rest, hreach, hlast⟩
    rcases wires_of_reaches hp hreach with ⟨fs, rfl, -, hrec, hr⟩
    refine ⟨hlen, ?_⟩
    rcases last_of_ok (hreach.framePos_le hp) hlast with ⟨f, rfl, hf⟩ | ⟨header, n, hunseen⟩
    · rw [hr] at hf
      have hwires : wires fs ++ f.wire = wires (fs ++ [f]) := by simp [wires_append]
      rw [hwires]
      exact ⟨_, _, .frames (by simp) (hrec.append hf)⟩
    · exact ⟨_, _, .cut hrec hunseen⟩
  · rw [decodeFrame, Traced.require_false hlen] at h
    cases h

theorem decodeFrame_accepts_iff {p : WSProtocol} (hp : p.framePos ≤ MAX_FRAMESIZE) {data : List UInt8}
    {out : List FrameCall} {acc : List UInt8} :
    (∃ q, decodeFrame p data = ⟨out, .ok q⟩ ∧ q.reassembled = acc) ↔
      data.length < MAX_FRAMESIZE ∧ Accepts p.reassembled data out acc := by
  constructor
  · rintro ⟨q, hq, rfl⟩
    rcases accepts_of_ok hp (congrArg Traced.result hq) with ⟨hlen, out', acc', h⟩
    rcases decodeFrame_of_accepts hp hlen h with ⟨q', hq', rfl⟩
    rw [hq] at hq'
    cases hq'
    exact ⟨hlen, h⟩
  · rintro ⟨hlen, h⟩
    exact decodeFrame_of_accepts hp hlen h

/-! ## Runs of calls -/

/-- What the calls of a run accept, one after the other. -/
inductive AcceptsAll : List UInt8 → List (List UInt8) → List FrameCall → List UInt8 → Prop
  | nil {acc : List UInt8} : AcceptsAll acc [] [] acc
  | cons {acc acc' acc'' data : List UInt8} {calls : List (List UInt8)} {out out' : List FrameCall} :
      data.length < MAX_FRAMESIZE → Accepts acc data out acc' → AcceptsAll acc' calls out' acc'' →
      AcceptsAll acc (data :: calls) (out ++ out') acc''

theorem acceptsAll_cons_iff {acc acc'' data : List UInt8} {calls : List (List UInt8)}
    {out : List FrameCall} : AcceptsAll acc (data :: calls) out acc'' ↔
      ∃ acc' out₁ out₂, out = out₁ ++ out₂ ∧ (data.length < MAX_FRAMESIZE ∧ Accepts acc data out₁ acc') ∧
        AcceptsAll acc' calls out₂ acc'' := by
  constructor
  · intro h
    cases h with
    | cons hlen hfirst hrest => exact ⟨_, _, _, rfl, ⟨hlen, hfirst⟩, hrest⟩
  · rintro ⟨acc', out₁, out₂, rfl, ⟨hlen, hfirst⟩, hrest⟩
    exact .cons hlen hfirst hrest

theorem decodeCalls_cons (p : WSProtocol) (data : List UInt8) (calls : List (List UInt8)) :
    decodeCalls p (data :: calls) = decodeFrame p data >>= fun q => decodeCalls q calls := rfl

theorem framePos_decodeFrame {p q : WSProtocol} {data : List UInt8} (hp : p.framePos ≤ MAX_FRAMESIZE)
    (h : (decodeFrame p data).result = .ok q) : q.framePos ≤ MAX_FRAMESIZE := by
  rcases Traced.result_bind h with ⟨-, -, hloop⟩
  exact framePos_decodeLoop hp hloop

theorem decodeCalls_accepts_iff {p : WSProtocol} (hp : p.framePos ≤ MAX_FRAMESIZE)
    (calls : List (List UInt8)) (out : List FrameCall) (acc : List UInt8) :
    (∃ q, decodeCalls p calls = ⟨out, .ok q⟩ ∧ q.reassembled = acc) ↔
      AcceptsAll p.reassembled calls out acc := by
  induction calls generalizing p out with
  | nil =>
      constructor
      · rintro ⟨q, hq, rfl⟩
        cases hq
        exact .nil
      · intro h
        cases h
        exact ⟨p, rfl, rfl⟩
  | cons data calls ih =>
      have hpos : ∀ {r out₁}, decodeFrame p data = ⟨out₁, .ok r⟩ → r.framePos ≤ MAX_FRAMESIZE :=
        fun hr => framePos_decodeFrame hp (congrArg Traced.result hr)
      simp only [acceptsAll_cons_iff, decodeCalls_cons, Traced.bind_eq_ok_iff]
      constructor
      · rintro ⟨q, ⟨r, out₁, out₂, hfirst, hrest, rfl⟩, hacc⟩
        exact ⟨_, _, _, rfl, (decodeFrame_accepts_iff hp).mp ⟨r, hfirst, rfl⟩,
          (ih (hpos hfirst) out₂).mp ⟨q, hrest, hacc⟩⟩
      · rintro ⟨acc', out₁, out₂, rfl, hfirst, hrest⟩
        rcases (decodeFrame_accepts_iff hp).mpr hfirst with ⟨r, hr, rfl⟩
        rcases (ih (hpos hr) out₂).mpr hrest with ⟨q, hq, hacc⟩
        exact ⟨q, ⟨r, out₁, out₂, hr, hq, rfl⟩, hacc⟩

/-- What a decoder returns on, with which callbacks, and what it keeps, whatever it is given. -/
theorem decoderAccepts (mem : Nat → UInt8) (calls : List (List UInt8)) (out : List FrameCall)
    (acc : List UInt8) :
    (∃ q, decodeCalls (.new mem) calls = ⟨out, .ok q⟩ ∧ q.reassembled = acc) ↔
      AcceptsAll [] calls out acc :=
  decodeCalls_accepts_iff (Nat.zero_le _) calls out acc

end WebsocketCpp
