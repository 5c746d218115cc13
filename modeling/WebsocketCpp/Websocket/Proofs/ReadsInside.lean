import WebsocketCpp.Websocket.Proofs.DecodeFront

/-!
# What the decoder reads

Every byte that `decodeFrame` looks at should be one it was given
(`websocket/WSProtocol.cpp:300-418`). It takes a header, a length and a payload from `data` without
asking `len` first, and `computeUnMask` prints its argument with `%s` before and after the loop
(`WSProtocol.cpp:54`, `71`), which reads up to the next zero byte. `OverReads` says which bytes make
an iteration leave the data; `readsInside_iff` that nothing else does.
-/

namespace WebsocketCpp

open Traced (Sim)

/-! ## The lines that `computeUnMask` prints -/

/-- The call of `computeUnMask` in an iteration on `data`: the bytes at its first argument, as far as
they were received, and its second. With FIN == 1 and the length code 127 the first argument is
`NULL`, of which `printf` reads nothing. -/
inductive UnmaskCall (data : List UInt8) : List UInt8 → Nat → Prop
  | fin {header : WSHead} {payl rest : List UInt8} {payll : Nat} :
      readHead data = pure header → header.mask = 1 → header.FIN = 1 →
      header.PayloadLen.toNat ≤ SHORT_LENGTH →
      locatePayload header data = pure (payl, payll, rest) → UnmaskCall data payl payll
  | fragment {header : WSHead} {payllen mask : Nat} :
      readHead data = pure header → header.mask = 1 → header.FIN ≠ 1 →
      header.PayloadLen.toNat = SHORT_LENGTH → readUShort (data.drop 2) = pure payllen →
      readUInt (data.drop (2 + 2)) = pure mask →
      UnmaskCall data (data.drop (2 + 2 + 4)) payllen

/-- The two strings that `computeUnMask` prints end inside of the data. -/
structure PrintsInside (payl : List UInt8) (payll : Nat) : Prop where
  before : 0 ∈ payl
  after : ∀ payl', (computeUnMask payl payll : Decode (List UInt8)).result = .ok payl' → 0 ∈ payl'

/-- A call of `decodeFrame` reads nothing but the bytes it is given. -/
structure ReadsInside (p : WSProtocol) (data : List UInt8) : Prop where
  inside : (decodeFrame p data).result ≠ .error .readPastEnd
  printed : ∀ q rest payl payll, Reaches p data q rest → UnmaskCall rest payl payll →
    PrintsInside payl payll

/-! ## What makes an iteration leave the data -/

/-- A payload of `n` bytes is looked at if it is masked, or copied. -/
def UsesPayload (header : WSHead) (n : Nat) : Prop :=
  if header.FIN = 1 then
    header.mask = 1 ∨ (header.Opcode = OpCode.eContinueFrame.code ∧ 0 < n)
  else header.PayloadLen.toNat = SHORT_LENGTH

/-- A zero byte follows the key of the frame, as it stands and after unmasking. -/
def ZeroFollows (f : Frame) (rest : List UInt8) : Prop :=
  0 ∈ f.body ++ rest ∧ (f.body ≠ [] → 0 ∈ f.payload ++ rest)

/-- The front of the data makes an iteration read beyond its end: there is no header, or no 16-bit
length behind a header that announces one, or a payload in use is cut off, or no zero byte ends the
string at a payload that is unmasked. -/
inductive OverReads (data : List UInt8) : Prop
  | header : data.length < 2 → OverReads data
  | length (header : WSHead) : readHead data = pure header →
      header.PayloadLen.toNat = SHORT_LENGTH → data.length < 4 → OverReads data
  | payload (header : WSHead) (n : Nat) : readHead data = pure header →
      header.PayloadLen.toNat ≤ SHORT_LENGTH → declaredLen header data = .ok n →
      data.length < payloadOffset header + n → UsesPayload header n → OverReads data
  | string (f : Frame) (rest : List UInt8) : data = f.wire ++ rest → f.head.mask = 1 →
      (f.head.FIN ≠ 1 → f.head.PayloadLen.toNat = SHORT_LENGTH) → ¬ZeroFollows f rest →
      OverReads data

theorem mem_of_unmask {f : Frame} (hmask : f.head.mask = 1) {rest payl' : List UInt8}
    (h : (computeUnMask (f.body ++ rest) f.body.length : Decode (List UInt8)).result = .ok payl') :
    f.body ≠ [] ∧ payl' = f.payload ++ rest := by
  have hcall : computeUnMask (f.body ++ rest) f.body.length =
      unmaskPayload f.head (f.body ++ rest) f.body.length := by rw [unmaskPayload, if_pos hmask]
  rw [hcall] at h
  by_cases hb : f.body = []
  · rw [unmaskPayload_empty f _ hmask hb] at h
    cases h
  · rw [unmaskPayload_body f rest fun _ => hb] at h
    exact ⟨hb, (Except.ok.inj h).symm⟩

/-- In front of a complete frame the lines end inside exactly if zero bytes follow. -/
theorem printsInside_body {f : Frame} (hmask : f.head.mask = 1) (rest : List UInt8) :
    PrintsInside (f.body ++ rest) f.body.length ↔ ZeroFollows f rest := by
  constructor
  · rintro ⟨hbefore, hafter⟩
    refine ⟨hbefore, ?_⟩
    intro hb
    apply hafter
    have hunmask := unmaskPayload_body f rest fun _ => hb
    rw [unmaskPayload, if_pos hmask] at hunmask
    rw [hunmask]
    rfl
  · rintro ⟨hbefore, hafter⟩
    refine ⟨hbefore, ?_⟩
    intro payl' h
    rcases mem_of_unmask hmask h with ⟨hb, rfl⟩
    exact hafter hb

theorem pure_inj {α : Type} {a b : α} (h : (pure a : Decode α) = pure b) : a = b :=
  Except.ok.inj (congrArg Traced.result h)

/-- The call of `computeUnMask` in front of a complete frame. -/
theorem unmaskCall_wire {f : Frame} {rest payl : List UInt8} {payll : Nat} :
    UnmaskCall (f.wire ++ rest) payl payll ↔
      f.head.mask = 1 ∧ (f.head.FIN ≠ 1 → f.head.PayloadLen.toNat = SHORT_LENGTH) ∧
        payl = f.body ++ rest ∧ payll = f.body.length := by
  have hread (hlong : f.head.PayloadLen.toNat = SHORT_LENGTH) :=
    readUShort_of_declaredLen hlong (declaredLen_wire f rest)
  have hbody (hlong : f.head.PayloadLen.toNat = SHORT_LENGTH) :
      (f.wire ++ rest).drop (2 + 2 + 4) = f.body ++ rest := by
    have hdrop := drop_body f rest
    rwa [Frame.lengthField, if_pos hlong] at hdrop
  constructor
  · intro h
    cases h with
    | fin hhead hmask hfin hcode hloc =>
        cases pure_inj ((readHead_wire f rest).symm.trans hhead)
        cases pure_inj ((locatePayload_wire f rest).symm.trans hloc)
        exact ⟨hmask, fun h => absurd hfin h, rfl, rfl⟩
    | fragment hhead hmask hfin hlong hlen hkey =>
        cases pure_inj ((readHead_wire f rest).symm.trans hhead)
        cases pure_inj ((hread hlong).symm.trans hlen)
        exact ⟨hmask, fun _ => hlong, hbody hlong, rfl⟩
  · rintro ⟨hmask, hcode, rfl, rfl⟩
    by_cases hfin : f.head.FIN = 1
    · exact .fin (readHead_wire f rest) hmask hfin f.payloadLen_le (locatePayload_wire f rest)
    · have hlong := hcode hfin
      have hfield : f.lengthField.length = 2 := by
        rw [Frame.lengthField, if_pos hlong]
        rfl
      have hwire := f.length_wire
      have hkey : 8 ≤ (f.wire ++ rest).length := by
        rw [List.length_append]
        omega
      rcases readUInt_front hkey with ⟨mask, hmaskRead⟩
      rw [← hbody hlong]
      exact .fragment (readHead_wire f rest) hmask hfin hlong (hread hlong) hmaskRead

/-- An iteration that stops beyond the end of the data. -/
theorem overReads_of_error {p : WSProtocol} (hp : p.framePos ≤ MAX_FRAMESIZE) {data : List UInt8}
    (h : (decodeIter p data).result = .error .readPastEnd) : OverReads data := by
  have hout := decodeIter_outcome hp data
  rw [h] at hout
  cases hout with
  | short hlen => exact .header hlen
  | noLength header hhead hlong hlen => exact .length header hhead hlong hlen
  | cut header n hhead hcode hn hcut huse => exact .payload header n hhead hcode hn hcut huse
  | frame f rest _ hdata =>
      subst hdata
      rcases receive_error (((decodeIter_wire p f rest).error_iff _).mp h) with
        ⟨-, he⟩ | ⟨-, -, he⟩ <;> cases he

theorem UnmaskCall.exists_header {data payl : List UInt8} {payll : Nat}
    (h : UnmaskCall data payl payll) :
    ∃ header, readHead data = pure header ∧ header.mask = 1 ∧
      header.PayloadLen.toNat ≤ SHORT_LENGTH ∧
      (header.FIN ≠ 1 → header.PayloadLen.toNat = SHORT_LENGTH) := by
  cases h with
  | fin hhead hmask hfin hcode _ => exact ⟨_, hhead, hmask, hcode, fun h => absurd hfin h⟩
  | fragment hhead hmask _ hlong _ _ => exact ⟨_, hhead, hmask, Nat.le_of_eq hlong, fun _ => hlong⟩

/-- A line that is printed beyond the end of the data. -/
theorem overReads_of_unmaskCall {data payl : List UInt8} {payll : Nat}
    (hcall : UnmaskCall data payl payll) (h : ¬PrintsInside payl payll) : OverReads data := by
  rcases hcall.exists_header with ⟨header', hhead', hmask, hcode', hfrag⟩
  cases front_cases data with
  | short hlen => exact .header hlen
  | noLength header hhead hlong hlen => exact .length header hhead hlong hlen
  | reserved header hhead hcode =>
      cases pure_inj (hhead'.symm.trans hhead)
      omega
  | cut header n hhead hcode hn hcut =>
      cases pure_inj (hhead'.symm.trans hhead)
      apply OverReads.payload header' n hhead hcode hn hcut
      unfold UsesPayload
      by_cases hfin : header'.FIN = 1
      · rw [if_pos hfin]
        exact .inl hmask
      · rw [if_neg hfin]
        exact hfrag hfin
  | frame f rest hdata =>
      subst hdata
      rcases unmaskCall_wire.mp hcall with ⟨hm, hcode, rfl, rfl⟩
      exact .string f rest rfl hm hcode fun hzero => h ((printsInside_body hm rest).mpr hzero)

/-! ## Calls -/

/-- A front that stops the decoder without a trace stops the call behind frames that are received. -/
theorem decodeFrame_stuck {p : WSProtocol} {fs : List Frame} {tail : List UInt8} {e : Fault}
    (hrec : Received p.reassembled fs) (hne : fs = [] ∨ tail ≠ [])
    (hlen : (wires fs ++ tail).length < MAX_FRAMESIZE)
    (hiter : ∀ q, decodeIter q tail = Traced.fail e) :
    (decodeFrame p (wires fs ++ tail)).result = .error e := by
  have hloop (q : WSProtocol) (m : Nat) (hm : tail.length < m) :
      decodeLoop m q tail = Traced.fail e := by
    cases m with
    | zero => exact absurd hm (Nat.not_lt_zero _)
    | succ m => rw [decodeLoop, hiter, Traced.fail_bind]
  by_cases htail : tail = []
  · rw [hne.resolve_right fun h => h htail] at hlen ⊢
    rw [decodeFrame, Traced.require_true hlen, pure_bind, wires_nil, List.nil_append,
      hloop p _ (Nat.lt_succ_self _)]
    rfl
  · have hafter : ∀ q m, tail.length < m →
        Sim Holds (decodeLoop m q tail) (Traced.fail e : Decode (List UInt8)) := by
      intro q m hm
      rw [hloop q m hm]
      exact Sim.fail e
    have hsim := @decodeFrame_wires_append p fs tail htail hlen (fun _ => Traced.fail e) hafter
    apply (hsim.error_iff e).mpr
    rw [receiveAll_ok hrec.1 hrec.2, Traced.mk_bind]
    rfl

/-- A payload that is used and cut off stops the iteration, unless it is masked and empty. -/
theorem decodeIter_usesPayload {data : List UInt8} {header : WSHead} {n : Nat}
    (hhead : readHead data = pure header) (hcode : header.PayloadLen.toNat ≤ SHORT_LENGTH)
    (hn : declaredLen header data = .ok n) (hcut : data.length < payloadOffset header + n)
    (huse : UsesPayload header n) (hne : header.FIN = 1 → header.mask = 1 → n ≠ 0)
    (p : WSProtocol) : decodeIter p data = Traced.fail .readPastEnd := by
  unfold UsesPayload at huse
  by_cases hfin : header.FIN = 1
  · rw [if_pos hfin] at huse
    by_cases hmask : header.mask = 1
    · rw [decodeIter_cut_masked hhead hn hcut hcode p hfin hmask, if_neg (hne hfin hmask)]
    · rcases huse.resolve_left hmask with ⟨hop, hpos⟩
      exact decodeIter_cut_last hhead hn hcut hcode p hfin hmask hop hpos
  · rw [if_neg hfin] at huse
    exact decodeIter_cut_fragment hhead hn hcut p hfin huse

theorem readsInside_of_framePos_le {p : WSProtocol} (hp : p.framePos ≤ MAX_FRAMESIZE)
    {data : List UInt8} (hlen : data.length < MAX_FRAMESIZE) :
    ReadsInside p data ↔
      ¬∃ fs tail, data = wires fs ++ tail ∧ (fs = [] ∨ tail ≠ []) ∧ Received p.reassembled fs ∧
        OverReads tail := by
  constructor
  · rintro hin ⟨fs, tail, rfl, hne, hrec, hover⟩
    have hstuck (e : ∀ q, decodeIter q tail = Traced.fail .readPastEnd) : False :=
      hin.inside (decodeFrame_stuck hrec hne hlen e)
    rcases reaches_wires hne hrec with ⟨q, hreach, -⟩
    cases hover with
    | header h => exact hstuck fun q => decodeIter_short q h
    | length header hhead hlong h => exact hstuck fun q => decodeIter_noLength hhead q hlong h
    | payload header n hhead hcode hn hcut huse =>
        by_cases hz : header.FIN = 1 ∧ header.mask = 1 ∧ n = 0
        · -- the pointer to an empty payload is already outside
          have hcall : UnmaskCall tail (tail.drop (payloadOffset header)) n :=
            .fin hhead hz.2.1 hz.1 hcode (locatePayload_eq hcode hn)
          have hbefore := (hin.printed q tail _ _ hreach hcall).before
          rw [List.drop_eq_nil_of_le (by omega)] at hbefore
          cases hbefore
        · apply hstuck
          apply decodeIter_usesPayload hhead hcode hn hcut huse
          intro hfin hmask h0
          exact hz ⟨hfin, hmask, h0⟩
    | string f rest htail hmask hcode hzero =>
        subst htail
        have hcall : UnmaskCall (f.wire ++ rest) (f.body ++ rest) f.body.length :=
          unmaskCall_wire.mpr ⟨hmask, hcode, rfl, rfl⟩
        exact hzero ((printsInside_body hmask rest).mp (hin.printed q _ _ _ hreach hcall))
  · intro hnot
    have hover : ∀ q tail, Reaches p data q tail → ¬OverReads tail := by
      intro q tail hreach hover
      rcases wires_of_reaches hp hreach with ⟨fs, hdata, hne, hrec, -⟩
      exact hnot ⟨fs, tail, hdata, hne, hrec, hover⟩
    refine ⟨?_, ?_⟩
    · intro herr
      rw [decodeFrame, Traced.require_true hlen, pure_bind] at herr
      rcases reaches_of_error herr (by decide) with ⟨q, tail, hreach, herr⟩
      exact hover q tail hreach (overReads_of_error (hreach.framePos_le hp) herr)
    · intro q tail payl payll hreach hcall
      by_contra hprints
      exact hover q tail hreach (overReads_of_unmaskCall hcall hprints)

/-- A call, in any state that calls lead to, reads nothing but the bytes it is given, unless frames
that are all received bring it in front of bytes that make an iteration leave them. -/
theorem readsInside_iff (mem : Nat → UInt8) (calls : List (List UInt8)) (p : WSProtocol)
    (hp : (decodeCalls (.new mem) calls).result = .ok p) (data : List UInt8)
    (hlen : data.length < MAX_FRAMESIZE) :
    ReadsInside p data ↔
      ¬∃ fs tail, data = wires fs ++ tail ∧ (fs = [] ∨ tail ≠ []) ∧ Received p.reassembled fs ∧
        OverReads tail := by
  apply readsInside_of_framePos_le _ hlen
  exact framePos_decodeCalls (show (WSProtocol.new mem).framePos ≤ _ from Nat.zero_le _) hp

/-- Of a text without payload the key is not looked at. -/
theorem readsInside_header : ReadsInside (.new fun _ => 0) [0x11, 0x00] := by
  apply (readsInside_iff (fun _ => 0) [] _ rfl [0x11, 0x00] (by decide)).mpr
  rintro ⟨fs, tail, hdata, -, -, hover⟩
  have hlen := congrArg List.length hdata
  cases fs with
  | cons f fs =>
      have hwire := f.length_wire
      rw [wires_cons, List.append_assoc, List.length_append] at hlen
      simp only [List.length_cons, List.length_nil] at hlen
      omega
  | nil =>
      cases hdata
      cases hover with
      | header h => exact absurd h (by decide)
      | length header hhead hlong h =>
          cases hhead
          exact absurd hlong (by decide)
      | payload header n hhead hcode hn hcut huse =>
          cases hhead
          cases hn
          exact absurd huse (by unfold UsesPayload; decide)
      | string f rest hwire hmask hcode hzero =>
          have hlen := congrArg List.length hwire
          have hwire := f.length_wire
          rw [List.length_append] at hlen
          simp only [List.length_cons, List.length_nil] at hlen
          omega

/-- A masked text of five bytes that is cut off behind the key. -/
theorem not_readsInside_cut :
    ¬ReadsInside (.new fun _ => 0) [0x11, 0x0B, 0x02, 0x08, 0x20, 0x80] := by
  intro h
  exact h.inside rfl

end WebsocketCpp
