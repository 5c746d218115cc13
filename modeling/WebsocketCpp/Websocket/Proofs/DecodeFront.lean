import WebsocketCpp.Websocket.Proofs.Boundaries
import WebsocketCpp.Websocket.Proofs.FrameBuffBound
import WebsocketCpp.Websocket.Proofs.PartialFrame

/-!
# The decoder on any bytes

What stands at the front of the data decides what one iteration of `decodeFrame` does
(`websocket/WSProtocol.cpp:306-414`). There is a complete frame or one that is cut off, there are
too few bytes for a header or for the 16-bit length, or the length code is 127, which no branch
knows (`front_cases`). The iterations that a call comes to start behind complete frames
(`reaches_wires`).
-/

namespace WebsocketCpp

open Traced (Sim)

/-! ## What stands at the front -/

/-- Where the payload starts. -/
def payloadOffset (header : WSHead) : Nat :=
  if header.PayloadLen.toNat = SHORT_LENGTH then 2 + 2 + 4 else 2 + 4

/-- The front of the data in front of an iteration. -/
inductive Front (data : List UInt8) : Prop
  | short : data.length < 2 → Front data
  | noLength (header : WSHead) : readHead data = pure header →
      header.PayloadLen.toNat = SHORT_LENGTH → data.length < 4 → Front data
  | reserved (header : WSHead) : readHead data = pure header →
      SHORT_LENGTH < header.PayloadLen.toNat → Front data
  | cut (header : WSHead) (n : Nat) : readHead data = pure header →
      header.PayloadLen.toNat ≤ SHORT_LENGTH → declaredLen header data = .ok n →
      data.length < payloadOffset header + n → Front data
  | frame (f : Frame) (rest : List UInt8) : data = f.wire ++ rest → Front data

theorem readHead_of_le {data : List UInt8} (h : 2 ≤ data.length) :
    ∃ header, readHead data = pure header := by
  match data, h with
  | _ :: _ :: _, _ => exact ⟨_, rfl⟩

theorem readUShort_of_le {data : List UInt8} (h : 2 ≤ data.length) :
    ∃ n, n < 2 ^ 16 ∧ readUShort data = pure n ∧ data.take 2 = ushortBytes n := by
  match data, h with
  | b0 :: b1 :: _, _ =>
      have h0 := b0.toNat_lt
      have h1 := b1.toNat_lt
      refine ⟨b0.toNat + 256 * b1.toNat, by omega, rfl, ?_⟩
      have hlow : UInt8.ofNat (b0.toNat + 256 * b1.toNat) = b0 := by
        apply UInt8.toNat_inj.mp
        rw [UInt8.toNat_ofNat']
        omega
      have hhigh : UInt8.ofNat ((b0.toNat + 256 * b1.toNat) / 256) = b1 := by
        apply UInt8.toNat_inj.mp
        rw [UInt8.toNat_ofNat']
        omega
      rw [ushortBytes, hlow, hhigh]
      rfl

theorem toBytes_ofBytes (b0 b1 : UInt8) : (WSHead.ofBytes b0 b1).toBytes = [b0, b1] := by
  have h0 := b0.toNat_lt
  have h1 := b1.toNat_lt
  have hlow : UInt8.ofNat ((WSHead.ofBytes b0 b1).FIN.toNat +
      2 * (WSHead.ofBytes b0 b1).RSV.toNat + 16 * (WSHead.ofBytes b0 b1).Opcode.toNat) = b0 := by
    apply UInt8.toNat_inj.mp
    simp only [WSHead.ofBytes, BitVec.toNat_ofNat, UInt8.toNat_ofNat']
    omega
  have hhigh : UInt8.ofNat ((WSHead.ofBytes b0 b1).mask.toNat +
      2 * (WSHead.ofBytes b0 b1).PayloadLen.toNat) = b1 := by
    apply UInt8.toNat_inj.mp
    simp only [WSHead.ofBytes, BitVec.toNat_ofNat, UInt8.toNat_ofNat']
    omega
  rw [WSHead.toBytes, hlow, hhigh]

theorem take_of_readHead {data : List UInt8} {header : WSHead} (h : readHead data = pure header) :
    2 ≤ data.length ∧ data.take 2 = header.toBytes := by
  match data with
  | [] => cases h
  | [_] => cases h
  | b0 :: b1 :: _ =>
      cases h
      rw [toBytes_ofBytes]
      exact ⟨by simp, rfl⟩

theorem split_of_readHead {data : List UInt8} {header : WSHead} (h : readHead data = pure header) :
    data = header.toBytes ++ data.drop 2 := by
  rw [← (take_of_readHead h).2, List.take_append_drop]

theorem exists_frame_short {data : List UInt8} {header : WSHead} (hhead : readHead data = pure header)
    (hlt : header.PayloadLen.toNat < SHORT_LENGTH)
    (hlen : 6 + header.PayloadLen.toNat ≤ data.length) :
    ∃ (f : Frame) (rest : List UInt8), data = f.wire ++ rest := by
  have hne : header.PayloadLen.toNat ≠ SHORT_LENGTH := Nat.ne_of_lt hlt
  have hn16 : header.PayloadLen.toNat < 2 ^ 16 := by
    rw [SHORT_LENGTH] at hlt
    omega
  refine ⟨⟨header, (data.drop 2).take 4, ((data.drop 2).drop 4).take header.PayloadLen.toNat, ?_,
    Nat.le_of_lt hlt, ?_, ?_⟩, ((data.drop 2).drop 4).drop header.PayloadLen.toNat, ?_⟩
  · rw [List.length_take, List.length_drop]
    omega
  · intro _
    simp only [List.length_take, List.length_drop]
    omega
  · simp only [List.length_take, List.length_drop]
    omega
  · simp only [Frame.wire, Frame.lengthField, if_neg hne, List.append_nil, List.append_assoc,
      List.take_append_drop]
    exact split_of_readHead hhead

theorem exists_frame_long {data : List UInt8} {header : WSHead} {n : Nat}
    (hhead : readHead data = pure header) (heq : header.PayloadLen.toNat = SHORT_LENGTH)
    (hn16 : n < 2 ^ 16) (hbytes : (data.drop 2).take 2 = ushortBytes n)
    (hlen : 8 + n ≤ data.length) :
    ∃ (f : Frame) (rest : List UInt8), data = f.wire ++ rest := by
  have hbody : ((((data.drop 2).drop 2).drop 4).take n).length = n := by
    simp only [List.length_take, List.length_drop]
    omega
  refine ⟨⟨header, ((data.drop 2).drop 2).take 4, (((data.drop 2).drop 2).drop 4).take n, ?_,
    Nat.le_of_eq heq, ?_, hbody.symm ▸ hn16⟩, (((data.drop 2).drop 2).drop 4).drop n, ?_⟩
  · simp only [List.length_take, List.length_drop]
    omega
  · intro hlt
    omega
  · simp only [Frame.wire, Frame.lengthField, if_pos heq, hbody, List.append_assoc, ← hbytes,
      List.take_append_drop]
    exact split_of_readHead hhead

/-- Data that is as long as it declares starts with a complete frame. -/
theorem exists_frame {data : List UInt8} {header : WSHead} {n : Nat}
    (hhead : readHead data = pure header) (hcode : header.PayloadLen.toNat ≤ SHORT_LENGTH)
    (hn : declaredLen header data = .ok n) (hlen : payloadOffset header + n ≤ data.length) :
    ∃ (f : Frame) (rest : List UInt8), data = f.wire ++ rest := by
  rcases Nat.lt_or_eq_of_le hcode with hlt | heq
  · have hne : header.PayloadLen.toNat ≠ SHORT_LENGTH := Nat.ne_of_lt hlt
    rw [declaredLen, if_neg hne] at hn
    rw [payloadOffset, if_neg hne] at hlen
    cases hn
    exact exists_frame_short hhead hlt hlen
  · rw [declaredLen, if_pos heq] at hn
    rw [payloadOffset, if_pos heq] at hlen
    have h2 : 2 ≤ (data.drop 2).length := by
      rw [List.length_drop]
      omega
    rcases readUShort_of_le h2 with ⟨n', hn16, hread, hbytes⟩
    rw [hread] at hn
    cases hn
    exact exists_frame_long hhead heq hn16 hbytes hlen

theorem front_cases (data : List UInt8) : Front data := by
  by_cases h2 : data.length < 2
  · exact .short h2
  rcases readHead_of_le (Nat.le_of_not_lt h2) with ⟨header, hhead⟩
  rcases Nat.lt_or_ge SHORT_LENGTH header.PayloadLen.toNat with hgt | hcode
  · exact .reserved header hhead hgt
  by_cases hshort : header.PayloadLen.toNat = SHORT_LENGTH ∧ data.length < 4
  · exact .noLength header hhead hshort.1 hshort.2
  have hdecl : ∃ n, declaredLen header data = .ok n := by
    unfold declaredLen
    split
    · rename_i heq
      have h4 : 2 ≤ (data.drop 2).length := by
        rw [List.length_drop]
        omega
      rcases readUShort_of_le h4 with ⟨n, -, hread, -⟩
      exact ⟨n, by rw [hread]; rfl⟩
    · exact ⟨_, rfl⟩
  rcases hdecl with ⟨n, hn⟩
  by_cases hlen : data.length < payloadOffset header + n
  · exact .cut header n hhead hcode hn hlen
  · rcases exists_frame hhead hcode hn (Nat.le_of_not_lt hlen) with ⟨f, rest, hdata⟩
    exact .frame f rest hdata

/-! ## One iteration -/

section

variable {data : List UInt8} {header : WSHead} {n : Nat}

theorem readUShort_of_declaredLen (hlong : header.PayloadLen.toNat = SHORT_LENGTH)
    (hn : declaredLen header data = .ok n) : readUShort (data.drop 2) = pure n := by
  rw [declaredLen, if_pos hlong] at hn
  match data.drop 2, hn with
  | _ :: _ :: _, hn =>
      cases hn
      rfl

/-- With FIN == 1 the payload is found by the lengths alone, whether it is there or not. -/
theorem locatePayload_eq (hcode : header.PayloadLen.toNat ≤ SHORT_LENGTH)
    (hn : declaredLen header data = .ok n) :
    locatePayload header data = pure (data.drop (payloadOffset header), n,
      data.drop (payloadOffset header + n)) := by
  unfold locatePayload payloadOffset
  rcases Nat.lt_or_eq_of_le hcode with hlt | heq
  · have hne : header.PayloadLen.toNat ≠ SHORT_LENGTH := Nat.ne_of_lt hlt
    rw [declaredLen, if_neg hne] at hn
    cases hn
    rw [if_pos hlt, if_neg hne, Nat.add_comm (2 + 4)]
  · have hnlt : ¬header.PayloadLen.toNat < SHORT_LENGTH := by omega
    rw [if_neg hnlt, if_pos heq, if_pos heq, readUShort_of_declaredLen heq hn, pure_bind,
      Nat.add_comm (2 + 2 + 4)]

theorem decodeIter_short (p : WSProtocol) (h : data.length < 2) :
    decodeIter p data = Traced.fail .readPastEnd := by
  rw [decodeIter, readHead_short h, Traced.fail_bind]

theorem length_drop_payload (hcut : data.length < payloadOffset header + n) (hpos : 0 < n) :
    (data.drop (payloadOffset header)).length < n := by
  rw [List.length_drop]
  omega

variable (hhead : readHead data = pure header)
include hhead

theorem decodeIter_noLength (p : WSProtocol) (hlong : header.PayloadLen.toNat = SHORT_LENGTH)
    (h : data.length < 4) : decodeIter p data = Traced.fail .readPastEnd := by
  have hread : readUShort (data.drop 2) = Traced.fail .readPastEnd := by
    apply readUShort_short
    rw [List.length_drop]
    omega
  have hnlt : ¬header.PayloadLen.toNat < SHORT_LENGTH := by omega
  rw [decodeIter, hhead, pure_bind]
  by_cases hfin : header.FIN = 1
  · simp only [if_pos hfin, locatePayload, if_neg hnlt, if_pos hlong, hread, Traced.fail_bind]
  · simp only [if_neg hfin, Traced.require_true hlong, pure_bind, hread, Traced.fail_bind]

/-- A fragment must have the 16-bit length. -/
theorem decodeIter_shortFragment (p : WSProtocol) (hfin : header.FIN ≠ 1)
    (hcode : header.PayloadLen.toNat ≠ SHORT_LENGTH) :
    decodeIter p data = Traced.fail .assertion := by
  rw [decodeIter, hhead, pure_bind, if_neg hfin, Traced.require_false hcode, Traced.fail_bind]

/-! ### The length code 127 -/

theorem decodeIter_reserved_masked (p : WSProtocol) (hfin : header.FIN = 1)
    (hcode : SHORT_LENGTH < header.PayloadLen.toNat) (hmask : header.mask = 1) :
    decodeIter p data = Traced.fail .assertion := by
  have hnlt : ¬header.PayloadLen.toNat < SHORT_LENGTH := by omega
  have hne : header.PayloadLen.toNat ≠ SHORT_LENGTH := by omega
  have hunmask : unmaskPayload header [] 0 = Traced.fail .assertion := by
    rw [unmaskPayload, if_pos hmask]
    exact maskInPlace_zero []
  simp only [decodeIter, hhead, pure_bind, if_pos hfin, locatePayload, if_neg hnlt, if_neg hne,
    hunmask, Traced.fail_bind]
  split <;> rfl

/-- Nothing is consumed and nothing changes. -/
theorem decodeIter_reserved {p : WSProtocol} (hp : p.framePos ≤ MAX_FRAMESIZE)
    (hfin : header.FIN = 1) (hcode : SHORT_LENGTH < header.PayloadLen.toNat)
    (hmask : header.mask ≠ 1) :
    ∃ q, (decodeIter p data).result = .ok (q, some data) ∧ q.reassembled = p.reassembled := by
  have hnlt : ¬header.PayloadLen.toNat < SHORT_LENGTH := by omega
  have hne : header.PayloadLen.toNat ≠ SHORT_LENGTH := by omega
  have hdata : remaining data = some data := by
    apply remaining_of_ne_nil
    rintro rfl
    cases hhead
  have hunmask : unmaskPayload header [] 0 = pure [] := by rw [unmaskPayload, if_neg hmask]
  simp only [decodeIter, hhead, pure_bind, if_pos hfin, locatePayload, if_neg hnlt, if_neg hne,
    hunmask, hdata]
  split
  · rcases copyPayload_fits p [] [] hp with ⟨q, hq, hre, -⟩
    rw [List.append_nil, List.length_nil] at hq
    rw [List.append_nil] at hre
    rw [hq, pure_bind]
    exact ⟨q, rfl, hre⟩
  · exact ⟨p, rfl, rfl⟩

/-! ### Payloads that are cut off -/

variable (hn : declaredLen header data = .ok n) (hcut : data.length < payloadOffset header + n)
include hn hcut

theorem decodeIter_cut_fragment (p : WSProtocol) (hfin : header.FIN ≠ 1)
    (hlong : header.PayloadLen.toNat = SHORT_LENGTH) :
    decodeIter p data = Traced.fail .readPastEnd := by
  rw [payloadOffset, if_pos hlong] at hcut
  rw [decodeIter, hhead, pure_bind, if_neg hfin, Traced.require_true hlong, pure_bind,
    readUShort_of_declaredLen hlong hn, pure_bind]
  by_cases hkey : data.length < 8
  · have hread : readUInt (data.drop (2 + 2)) = Traced.fail .readPastEnd := by
      apply readUInt_short
      rw [List.length_drop]
      omega
    rw [hread, Traced.fail_bind]
  · rcases readUInt_front (Nat.le_of_not_lt hkey) with ⟨mask, hread⟩
    have hshort : (data.drop (2 + 2 + 4)).length < n := by
      rw [List.length_drop]
      omega
    rw [hread, pure_bind]
    by_cases hmask : header.mask = 1
    · rw [unmaskPayload, if_pos hmask, computeUnMask, maskInPlace_short hshort, Traced.fail_bind]
    · rw [unmaskPayload, if_neg hmask, pure_bind, WSProtocol.copyPayload,
        Traced.require_false (Nat.not_le.mpr hshort), Traced.fail_bind, Traced.fail_bind]

theorem decodeIter_cut_masked (hcode : header.PayloadLen.toNat ≤ SHORT_LENGTH) (p : WSProtocol)
    (hfin : header.FIN = 1) (hmask : header.mask = 1) :
    decodeIter p data = Traced.fail (if n = 0 then .assertion else .readPastEnd) := by
  have hunmask : unmaskPayload header (data.drop (payloadOffset header)) n =
      Traced.fail (if n = 0 then .assertion else .readPastEnd) := by
    rw [unmaskPayload, if_pos hmask, computeUnMask]
    by_cases hz : n = 0
    · subst hz
      exact maskInPlace_zero _
    · rw [if_neg hz]
      exact maskInPlace_short (length_drop_payload hcut (Nat.pos_of_ne_zero hz))
  simp only [decodeIter, hhead, pure_bind, if_pos hfin, locatePayload_eq hcode hn, hunmask,
    Traced.fail_bind]
  split <;> rfl

theorem decodeIter_cut_last (hcode : header.PayloadLen.toNat ≤ SHORT_LENGTH) (p : WSProtocol)
    (hfin : header.FIN = 1) (hmask : header.mask ≠ 1)
    (hop : header.Opcode = OpCode.eContinueFrame.code) (hpos : 0 < n) :
    decodeIter p data = Traced.fail .readPastEnd := by
  have hshort := length_drop_payload hcut hpos
  simp only [decodeIter, hhead, pure_bind, if_pos hfin, if_pos hop, locatePayload_eq hcode hn,
    unmaskPayload, if_neg hmask, WSProtocol.copyPayload,
    Traced.require_false (Nat.not_le.mpr hshort), Traced.fail_bind]

/-- The decoder that does not look at the payload takes it as received, and is done. -/
theorem decodeIter_cut_unused (hcode : header.PayloadLen.toNat ≤ SHORT_LENGTH) (p : WSProtocol)
    (hfin : header.FIN = 1) (hmask : header.mask ≠ 1)
    (hop : header.Opcode = OpCode.eContinueFrame.code → n = 0) :
    (∀ e, (decodeIter p data).result = .error e → e = .writePastBuffer) ∧
      ∀ a, (decodeIter p data).result = .ok a → a.2 = none := by
  have hrest : remaining (data.drop (payloadOffset header + n)) = none := by
    rw [List.drop_eq_nil_of_le (Nat.le_of_lt hcut)]
    rfl
  simp only [decodeIter, hhead, pure_bind, if_pos hfin, locatePayload_eq hcode hn, unmaskPayload,
    if_neg hmask, hrest]
  split
  · rename_i hcont
    rw [hop hcont, WSProtocol.copyPayload, Traced.require_true (Nat.zero_le _), pure_bind]
    by_cases hfit : p.framePos + 0 ≤ MAX_FRAMESIZE
    · rw [Traced.require_true hfit, pure_bind, pure_bind]
      refine ⟨?_, ?_⟩
      · intro e h
        cases h
      · intro a h
        cases h
        rfl
    · rw [Traced.require_false hfit, Traced.fail_bind, Traced.fail_bind]
      refine ⟨?_, ?_⟩
      · intro e h
        cases h
        rfl
      · intro a h
        cases h
  · refine ⟨?_, ?_⟩
    · intro e h
      cases h
    · intro a h
      cases h
      rfl

end

/-! ## The iterations of a call -/

/-- `Reaches p data q rest`: the loop of `decodeFrame`, started on `data` in state `p`, begins one of
its iterations on `rest` in state `q`. -/
inductive Reaches : WSProtocol → List UInt8 → WSProtocol → List UInt8 → Prop
  | here {p : WSProtocol} {data : List UInt8} : Reaches p data p data
  | later {p : WSProtocol} {data : List UInt8} {q : WSProtocol} {rest : List UInt8}
      {r : WSProtocol} {tail : List UInt8} :
      (decodeIter p data).result = .ok (q, some rest) → Reaches q rest r tail →
      Reaches p data r tail

theorem Reaches.trans {p q r : WSProtocol} {data rest tail : List UInt8} (h : Reaches p data q rest)
    (h' : Reaches q rest r tail) : Reaches p data r tail := by
  induction h with
  | here => exact h'
  | later hiter _ ih => exact .later hiter (ih h')

theorem Reaches.framePos_le {p q : WSProtocol} {data rest : List UInt8} (h : Reaches p data q rest)
    (hp : p.framePos ≤ MAX_FRAMESIZE) : q.framePos ≤ MAX_FRAMESIZE := by
  induction h with
  | here => exact hp
  | later hiter _ ih => exact ih (framePos_decodeIter hp hiter)

/-- The frames are received by a decoder that holds `acc`: all are accepted and find room. -/
def Received (acc : List UInt8) (fs : List Frame) : Prop :=
  (∀ f ∈ fs, f.Accepted) ∧ Fragment.AllFit MAX_FRAMESIZE acc (fs.map Frame.fragment)

theorem received_nil (acc : List UInt8) : Received acc [] :=
  ⟨fun _ hf => absurd hf List.not_mem_nil, trivial⟩

theorem received_cons {acc : List UInt8} {f : Frame} {fs : List Frame} :
    Received acc (f :: fs) ↔
      (f.Accepted ∧ f.fragment.Fits MAX_FRAMESIZE acc) ∧ Received (f.fragment.keep acc) fs := by
  simp only [Received, List.forall_mem_cons, List.map_cons, Fragment.AllFit]
  tauto

/-- The iteration in front of a frame goes on exactly if the frame is received. -/
theorem decodeIter_wire_ok {p q : WSProtocol} {f : Frame} {rest : List UInt8}
    {next : Option (List UInt8)} (h : (decodeIter p (f.wire ++ rest)).result = .ok (q, next)) :
    (f.Accepted ∧ f.fragment.Fits MAX_FRAMESIZE p.reassembled) ∧
      q.reassembled = f.fragment.keep p.reassembled ∧ next = remaining rest := by
  rcases (decodeIter_wire p f rest).ok_left h with ⟨acc, hacc, hq, hnext⟩
  rcases receive_result hacc with ⟨ha, hf, hkeep⟩
  exact ⟨⟨ha, hf⟩, hq.trans hkeep.symm, hnext⟩

theorem decodeIter_received {p : WSProtocol} {f : Frame} (ha : f.Accepted)
    (hf : f.fragment.Fits MAX_FRAMESIZE p.reassembled) (rest : List UInt8) :
    ∃ q, (decodeIter p (f.wire ++ rest)).result = .ok (q, remaining rest) ∧
      q.reassembled = f.fragment.keep p.reassembled := by
  have hsim := decodeIter_wire p f rest
  rw [receive_ok ha hf] at hsim
  rcases hsim.ok_right rfl with ⟨⟨q, next⟩, hiter, hq, hnext⟩
  cases hnext
  exact ⟨q, hiter, hq⟩

/-- Behind frames that are received the loop goes on. -/
theorem reaches_wires {fs : List Frame} {tail : List UInt8} (h : fs = [] ∨ tail ≠ [])
    {p : WSProtocol} (hrec : Received p.reassembled fs) :
    ∃ q, Reaches p (wires fs ++ tail) q tail ∧
      q.reassembled = Fragment.pending p.reassembled (fs.map Frame.fragment) := by
  induction fs generalizing p with
  | nil => exact ⟨p, .here, rfl⟩
  | cons f fs ih =>
      have htail : tail ≠ [] := h.resolve_left (List.cons_ne_nil f fs)
      rcases received_cons.mp hrec with ⟨⟨ha, hf⟩, hrest⟩
      rcases decodeIter_received ha hf (wires fs ++ tail) with ⟨q, hiter, hq⟩
      rw [remaining_of_ne_nil (by simp [htail])] at hiter
      rw [← hq] at hrest
      rcases ih (.inr htail) hrest with ⟨r, hreach, hr⟩
      rw [wires_cons, List.append_assoc]
      refine ⟨r, .later hiter hreach, ?_⟩
      rw [hr, hq]
      rfl

/-- The front that no iteration consumes: FIN == 1, no mask bit and the length code 127. -/
def Spins (data : List UInt8) : Prop :=
  ∃ header, readHead data = pure header ∧ header.FIN = 1 ∧ header.mask ≠ 1 ∧
    SHORT_LENGTH < header.PayloadLen.toNat

/-- How an iteration can end, by the front of the data: `refused` by an assertion, `full` at a copy that
`frameBuff_` has no room for. -/
inductive Outcome (p : WSProtocol) (data : List UInt8) :
    Except Fault (WSProtocol × Option (List UInt8)) → Prop
  | short : data.length < 2 → Outcome p data (.error .readPastEnd)
  | noLength (header : WSHead) : readHead data = pure header →
      header.PayloadLen.toNat = SHORT_LENGTH → data.length < 4 →
      Outcome p data (.error .readPastEnd)
  | cut (header : WSHead) (n : Nat) : readHead data = pure header →
      header.PayloadLen.toNat ≤ SHORT_LENGTH → declaredLen header data = .ok n →
      data.length < payloadOffset header + n →
      (if header.FIN = 1 then
        header.mask = 1 ∨ (header.Opcode = OpCode.eContinueFrame.code ∧ 0 < n)
      else header.PayloadLen.toNat = SHORT_LENGTH) → Outcome p data (.error .readPastEnd)
  | refused : Outcome p data (.error .assertion)
  | full : Outcome p data (.error .writePastBuffer)
  | unused (q : WSProtocol) : Outcome p data (.ok (q, none))
  | spins (q : WSProtocol) : Spins data → q.reassembled = p.reassembled →
      Outcome p data (.ok (q, some data))
  | frame (f : Frame) (rest : List UInt8) (result) : data = f.wire ++ rest → Outcome p data result

theorem outcome_reserved {p : WSProtocol} (hp : p.framePos ≤ MAX_FRAMESIZE) {data : List UInt8}
    {header : WSHead} (hhead : readHead data = pure header)
    (hcode : SHORT_LENGTH < header.PayloadLen.toNat) : Outcome p data (decodeIter p data).result := by
  by_cases hfin : header.FIN = 1
  · by_cases hmask : header.mask = 1
    · rw [decodeIter_reserved_masked hhead p hfin hcode hmask]
      exact .refused
    · rcases decodeIter_reserved hhead hp hfin hcode hmask with ⟨q, hq, hre⟩
      rw [hq]
      exact .spins q ⟨header, hhead, hfin, hmask, hcode⟩ hre
  · rw [decodeIter_shortFragment hhead p hfin (Nat.ne_of_gt hcode)]
    exact .refused

theorem outcome_cut (p : WSProtocol) {data : List UInt8} {header : WSHead} {n : Nat}
    (hhead : readHead data = pure header) (hcode : header.PayloadLen.toNat ≤ SHORT_LENGTH)
    (hn : declaredLen header data = .ok n) (hcut : data.length < payloadOffset header + n) :
    Outcome p data (decodeIter p data).result := by
  by_cases hfin : header.FIN = 1
  · by_cases hmask : header.mask = 1
    · rw [decodeIter_cut_masked hhead hn hcut hcode p hfin hmask]
      by_cases hz : n = 0
      · rw [if_pos hz]
        exact .refused
      · rw [if_neg hz]
        exact .cut header n hhead hcode hn hcut (by rw [if_pos hfin]; exact .inl hmask)
    · by_cases hop : header.Opcode = OpCode.eContinueFrame.code → n = 0
      · rcases decodeIter_cut_unused hhead hn hcut hcode p hfin hmask hop with ⟨herr, hok⟩
        cases hres : (decodeIter p data).result with
        | error e =>
            rw [herr e hres]
            exact .full
        | ok a =>
            rcases a with ⟨q, next⟩
            cases hok _ hres
            exact .unused q
      · rcases Classical.not_imp.mp hop with ⟨hcont, hne⟩
        have hpos := Nat.pos_of_ne_zero hne
        rw [decodeIter_cut_last hhead hn hcut hcode p hfin hmask hcont hpos]
        exact .cut header n hhead hcode hn hcut (by rw [if_pos hfin]; exact .inr ⟨hcont, hpos⟩)
  · by_cases hlong : header.PayloadLen.toNat = SHORT_LENGTH
    · rw [decodeIter_cut_fragment hhead hn hcut p hfin hlong]
      exact .cut header n hhead hcode hn hcut (by rw [if_neg hfin]; exact hlong)
    · rw [decodeIter_shortFragment hhead p hfin hlong]
      exact .refused

theorem decodeIter_outcome {p : WSProtocol} (hp : p.framePos ≤ MAX_FRAMESIZE) (data : List UInt8) :
    Outcome p data (decodeIter p data).result := by
  cases front_cases data with
  | short hlen =>
      rw [decodeIter_short p hlen]
      exact .short hlen
  | noLength header hhead hlong hlen =>
      rw [decodeIter_noLength hhead p hlong hlen]
      exact .noLength header hhead hlong hlen
  | reserved header hhead hcode => exact outcome_reserved hp hhead hcode
  | cut header n hhead hcode hn hcut => exact outcome_cut p hhead hcode hn hcut
  | frame f rest hdata => exact .frame f rest _ hdata

/-- An iteration that goes on has received a frame, or it has consumed nothing. -/
theorem decodeIter_continues {p q : WSProtocol} (hp : p.framePos ≤ MAX_FRAMESIZE)
    {data rest : List UInt8} (h : (decodeIter p data).result = .ok (q, some rest)) :
    (∃ f : Frame, data = f.wire ++ rest ∧ rest ≠ [] ∧
      (f.Accepted ∧ f.fragment.Fits MAX_FRAMESIZE p.reassembled) ∧
      q.reassembled = f.fragment.keep p.reassembled) ∨
    (Spins data ∧ rest = data ∧ q.reassembled = p.reassembled) := by
  have hout := decodeIter_outcome hp data
  rw [h] at hout
  cases hout with
  | spins _ hspin hre => exact .inr ⟨hspin, rfl, hre⟩
  | frame f rest' _ hdata =>
      subst hdata
      rcases decodeIter_wire_ok h with ⟨hrec, hq, hnext⟩
      have hne : rest' ≠ [] := by
        rintro rfl
        cases hnext
      rw [remaining_of_ne_nil hne] at hnext
      cases hnext
      exact .inl ⟨f, rfl, hne, hrec, hq⟩

/-- The iterations of a call start behind frames that have been received. -/
theorem wires_of_reaches {p q : WSProtocol} (hp : p.framePos ≤ MAX_FRAMESIZE)
    {data rest : List UInt8} (h : Reaches p data q rest) :
    ∃ fs, data = wires fs ++ rest ∧ (fs = [] ∨ rest ≠ []) ∧ Received p.reassembled fs ∧
      q.reassembled = Fragment.pending p.reassembled (fs.map Frame.fragment) := by
  induction h with
  | here => exact ⟨[], rfl, .inl rfl, received_nil _, rfl⟩
  | later hiter _ ih =>
      rcases ih (framePos_decodeIter hp hiter) with ⟨fs, hdata, hne, hrec, hq⟩
      rcases decodeIter_continues hp hiter with ⟨f, hfront, hrest, hf, hkeep⟩ | ⟨-, hsame, hkeep⟩
      · rw [hkeep] at hrec hq
        refine ⟨f :: fs, ?_, ?_, received_cons.mpr ⟨hf, hrec⟩, hq⟩
        · rw [hfront, hdata, wires_cons, List.append_assoc]
        · rcases hne with rfl | hne
          · exact .inr (by simpa [hdata] using hrest)
          · exact .inr hne
      · rw [hkeep] at hrec hq
        exact ⟨fs, hsame ▸ hdata, hne, hrec, hq⟩

/-- What stops a call stops one of its iterations. -/
theorem reaches_of_error {n : Nat} {p : WSProtocol} {data : List UInt8} {e : Fault}
    (h : (decodeLoop n p data).result = .error e) (he : e ≠ .running) :
    ∃ q rest, Reaches p data q rest ∧ (decodeIter q rest).result = .error e := by
  induction n generalizing p data with
  | zero =>
      cases h
      exact absurd rfl he
  | succ n ih =>
      rcases Traced.error_bind h with hiter | ⟨⟨q, next⟩, hiter, hrest⟩
      · exact ⟨p, data, .here, hiter⟩
      · cases next with
        | none => cases hrest
        | some rest =>
            rcases ih hrest with ⟨r, tail, hreach, herr⟩
            exact ⟨r, tail, .later hiter hreach, herr⟩

end WebsocketCpp
