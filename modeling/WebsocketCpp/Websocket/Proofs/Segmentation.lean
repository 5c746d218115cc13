import WebsocketCpp.Websocket.Proofs.EncodeFrames
import WebsocketCpp.Websocket.Proofs.PartialFrame
import WebsocketCpp.Websocket.Proofs.ReceivePath

/-!
# Reads that cut the stream anywhere

The client hands every socket read to `decodeFrame` as it is, and `handleRead` resets the read
buffer before it reads (`net/NetConnection.cpp:37-61`). What is missing of a frame at the end of
a read is therefore looked for behind the bytes received, not in the next read. Two ways of
cutting a stream have the same effect exactly when neither of them cuts a frame
(`segmentation_iff`).
-/

namespace WebsocketCpp

open Traced (Sim)

/-! ## Positions in a stream of frames -/

/-- The frames that end within the first `n` bytes. -/
def framesWithin : List Frame → Nat → List Frame
  | [], _ => []
  | f :: fs, n => if f.wire.length ≤ n then f :: framesWithin fs (n - f.wire.length) else []

/-- The first `n` bytes end inside of a frame, in the part of it that the decoder asks for, and
all frames before it are received; `acc` is what the decoder holds. -/
def EndsInside : List UInt8 → List Frame → Nat → Prop
  | _, [], _ => False
  | acc, f :: fs, n =>
    if n < f.wire.length then 0 < n ∧ n < f.reach
    else f.Accepted ∧ f.fragment.Fits MAX_FRAMESIZE acc ∧
      EndsInside (f.fragment.keep acc) fs (n - f.wire.length)

/-- The number of messages that are completed within the first `n` bytes, up to a frame that is
not received. -/
def completed : List UInt8 → List Frame → Nat → Nat
  | _, [], _ => 0
  | acc, f :: fs, n =>
    if f.wire.length ≤ n ∧ f.Accepted ∧ f.fragment.Fits MAX_FRAMESIZE acc then
      (f.fragment.emits acc).length + completed (f.fragment.keep acc) fs (n - f.wire.length)
    else 0

/-- The bytes in front of the first read that is too long for `decodeFrame`. -/
def heard : List (List UInt8) → Nat
  | [] => 0
  | d :: ds => if d.length < MAX_FRAMESIZE then d.length + heard ds else 0

/-- None of the reads behind the first `n` bytes ends inside of a frame, up to the first one that
is too long for `decodeFrame`. -/
def CutsBetween (acc : List UInt8) (fs : List Frame) : Nat → List (List UInt8) → Prop
  | _, [] => True
  | n, d :: ds =>
    d.length < MAX_FRAMESIZE →
      ¬EndsInside acc fs (n + d.length) ∧ CutsBetween acc fs (n + d.length) ds

theorem framesWithin_zero (fs : List Frame) : framesWithin fs 0 = [] := by
  cases fs with
  | nil => rfl
  | cons f fs =>
      have hpos := List.length_pos_iff.mpr f.wire_ne_nil
      exact if_neg (by omega)

theorem framesWithin_append (gs hs : List Frame) (n : Nat) :
    framesWithin (gs ++ hs) ((wires gs).length + n) = gs ++ framesWithin hs n := by
  induction gs with
  | nil => rw [wires_nil, List.length_nil, Nat.zero_add, List.nil_append, List.nil_append]
  | cons g gs ih =>
      rw [wires_cons, List.length_append, List.cons_append, framesWithin, if_pos (by omega),
        List.cons_append, ← ih]
      congr 2
      omega

/-- Of the streams up to two positions one is the beginning of the other. -/
theorem framesWithin_prefix (fs : List Frame) {n m : Nat} (h : n ≤ m) :
    framesWithin fs n <+: framesWithin fs m := by
  induction fs generalizing n m with
  | nil => exact List.prefix_refl _
  | cons f fs ih =>
      unfold framesWithin
      by_cases hn : f.wire.length ≤ n
      · rw [if_pos hn, if_pos (Nat.le_trans hn h)]
        exact (List.prefix_cons_inj f).mpr (ih (by omega))
      · rw [if_neg hn]
        exact List.nil_prefix

theorem endsInside_zero (acc : List UInt8) (fs : List Frame) : ¬EndsInside acc fs 0 := by
  cases fs with
  | nil => exact id
  | cons f fs =>
      have hpos := List.length_pos_iff.mpr f.wire_ne_nil
      rw [EndsInside, if_pos hpos]
      exact fun h => Nat.lt_irrefl 0 h.1

/-- Positions behind complete frames. -/
theorem endsInside_append (acc : List UInt8) (gs hs : List Frame) (n : Nat) :
    EndsInside acc (gs ++ hs) ((wires gs).length + n) ↔
      ∃ acc', (receiveAll acc gs).result = .ok acc' ∧ EndsInside acc' hs n := by
  induction gs generalizing acc with
  | nil =>
      rw [wires_nil, List.length_nil, Nat.zero_add, List.nil_append, receiveAll_nil]
      constructor
      · intro h
        exact ⟨acc, rfl, h⟩
      · rintro ⟨acc', hacc, h⟩
        cases hacc
        exact h
  | cons g gs ih =>
      rw [wires_cons, List.length_append, List.cons_append, EndsInside, if_neg (by omega),
        receiveAll_cons,
        show g.wire.length + (wires gs).length + n - g.wire.length = (wires gs).length + n by omega,
        ih]
      rcases receive_cases acc g with ⟨ha, hf, hok⟩ | ⟨hno, e, -, hfail⟩
      · rw [hok, Traced.mk_bind]
        exact ⟨fun h => h.2.2, fun h => ⟨ha, hf, h⟩⟩
      · rw [hfail, Traced.fail_bind]
        constructor
        · intro h
          exact absurd ⟨h.1, h.2.1⟩ hno
        · rintro ⟨acc', hacc, -⟩
          cases hacc

theorem length_lt_wire {f : Frame} {tail missing : List UInt8} (hw : f.wire = tail ++ missing)
    (hm : missing ≠ []) : tail.length < f.wire.length := by
  rw [hw, List.length_append]
  exact Nat.lt_add_of_pos_right (List.length_pos_iff.mpr hm)

theorem endsInside_front {acc : List UInt8} {f : Frame} {fs : List Frame}
    {tail missing : List UInt8} (hw : f.wire = tail ++ missing) (htail : tail ≠ [])
    (hm : missing ≠ []) : EndsInside acc (f :: fs) tail.length ↔ tail.length < f.reach := by
  rw [EndsInside, if_pos (length_lt_wire hw hm)]
  exact and_iff_right (List.length_pos_iff.mpr htail)

/-- A position further on inside of the same frame is inside of it, too. -/
theorem lt_reach_of_endsInside {acc : List UInt8} {f : Frame} {fs : List Frame} {k n : Nat}
    (he : f.Emitted) (hk : k < f.wire.length) (hn : k ≤ n) (h : EndsInside acc (f :: fs) n) :
    k < f.reach := by
  rw [EndsInside] at h
  split at h
  · exact Nat.lt_of_le_of_lt hn h.2
  · rw [Frame.reach_of_ne_nil (he.accepted_iff.mp h.1)]
    exact hk

theorem cutsBetween_append {acc acc' : List UInt8} {gs : List Frame}
    (hr : (receiveAll acc gs).result = .ok acc') (hs : List Frame) (n : Nat)
    (ds : List (List UInt8)) :
    CutsBetween acc (gs ++ hs) ((wires gs).length + n) ds ↔ CutsBetween acc' hs n ds := by
  induction ds generalizing n with
  | nil => exact Iff.rfl
  | cons d ds ih =>
      have hends : EndsInside acc (gs ++ hs) ((wires gs).length + (n + d.length)) ↔
          EndsInside acc' hs (n + d.length) := by
        rw [endsInside_append]
        constructor
        · rintro ⟨acc1, hacc1, h⟩
          rw [hr] at hacc1
          cases hacc1
          exact h
        · intro h
          exact ⟨acc', hr, h⟩
      rw [CutsBetween, CutsBetween, Nat.add_assoc, hends, ih]

theorem exists_endsInside {acc : List UInt8} {fs : List Frame} {n : Nat} {ds : List (List UInt8)}
    (h : ¬CutsBetween acc fs n ds) : ∃ m, n ≤ m ∧ EndsInside acc fs m := by
  induction ds generalizing n with
  | nil => exact absurd trivial h
  | cons d ds ih =>
      by_cases hends : EndsInside acc fs (n + d.length)
      · exact ⟨_, Nat.le_add_right .., hends⟩
      · have hrest : ¬CutsBetween acc fs (n + d.length) ds := fun hcuts => h fun _ => ⟨hends, hcuts⟩
        obtain ⟨m, hm, hin⟩ := ih hrest
        exact ⟨m, Nat.le_trans (Nat.le_add_right ..) hm, hin⟩

/-- A read ends between two frames or inside of one. -/
theorem split_wires {fs : List Frame} {d rest : List UInt8} (h : wires fs = d ++ rest) :
    ∃ gs hs, fs = gs ++ hs ∧ ((d = wires gs ∧ rest = wires hs) ∨
      ∃ f fs' tail missing, hs = f :: fs' ∧ f.wire = tail ++ missing ∧ tail ≠ [] ∧ missing ≠ [] ∧
        d = wires gs ++ tail) := by
  induction fs generalizing d with
  | nil =>
      obtain ⟨rfl, rfl⟩ := List.append_eq_nil_iff.mp h.symm
      exact ⟨[], [], rfl, .inl ⟨rfl, rfl⟩⟩
  | cons f fs ih =>
      rw [wires_cons] at h
      rcases List.append_eq_append_iff.mp h with ⟨d', rfl, hrest⟩ | ⟨missing, hwire, rfl⟩
      · obtain ⟨gs, hs, rfl, hcases⟩ := ih hrest
        refine ⟨f :: gs, hs, rfl, ?_⟩
        rcases hcases with ⟨rfl, hr⟩ | ⟨g, fs', tail, missing, hg, hw, htail, hmissing, rfl⟩
        · exact .inl ⟨rfl, hr⟩
        · exact .inr ⟨g, fs', tail, missing, hg, hw, htail, hmissing, by simp⟩
      · rcases eq_or_ne d [] with rfl | hd
        · exact ⟨[], f :: fs, rfl, .inl ⟨rfl, by rw [wires_cons, hwire, List.nil_append]⟩⟩
        rcases eq_or_ne missing [] with rfl | hmissing
        · exact ⟨[f], fs, rfl, .inl ⟨by simpa using hwire.symm, rfl⟩⟩
        · exact ⟨[], f :: fs, rfl, .inr ⟨f, fs, d, missing, rfl, hwire, hd, hmissing, rfl⟩⟩

/-! ## What is delivered -/

/-- On complete frames nothing is read past the end. -/
theorem receiveAll_ne_readPastEnd (acc : List UInt8) (fs : List Frame) :
    (receiveAll acc fs).result ≠ .error .readPastEnd := by
  induction fs generalizing acc with
  | nil =>
      intro h
      cases h
  | cons f fs ih =>
      rw [receiveAll_cons]
      rcases receive_cases acc f with ⟨-, -, hok⟩ | ⟨-, e, he, hfail⟩
      · rw [hok, Traced.mk_bind]
        exact ih _
      · rw [hfail, Traced.fail_bind]
        intro h
        exact he (Except.error.inj h)

theorem length_out_framesWithin (acc : List UInt8) (fs : List Frame) (n : Nat) :
    (receiveAll acc (framesWithin fs n)).out.length = completed acc fs n := by
  induction fs generalizing acc n with
  | nil => rfl
  | cons f fs ih =>
      unfold framesWithin completed
      by_cases hn : f.wire.length ≤ n
      case neg =>
        rw [if_neg hn, if_neg (fun h => hn h.1)]
        rfl
      rw [if_pos hn, receiveAll_cons]
      rcases receive_cases acc f with ⟨ha, hf, hok⟩ | ⟨hno, e, -, hfail⟩
      · rw [if_pos ⟨hn, ha, hf⟩, hok, Traced.mk_bind, List.length_append, List.length_map, ih]
      · rw [if_neg (fun h => hno h.2), hfail]
        rfl

theorem out_framesWithin_rejected {f : Frame} (ha : ¬f.Accepted) (acc : List UInt8)
    (fs : List Frame) (n : Nat) : (receiveAll acc (framesWithin (f :: fs) n)).out = [] := by
  unfold framesWithin
  split
  · rw [receiveAll_cons, receive_rejected ha]
    rfl
  · rfl

/-- Up to two positions the same is delivered if it is equally much. -/
theorem out_framesWithin_iff (acc : List UInt8) (fs : List Frame) (n m : Nat) :
    (receiveAll acc (framesWithin fs n)).out = (receiveAll acc (framesWithin fs m)).out ↔
      completed acc fs n = completed acc fs m := by
  have hmore : ∀ {n m}, n ≤ m →
      (receiveAll acc (framesWithin fs n)).out <+: (receiveAll acc (framesWithin fs m)).out := by
    intro n m h
    obtain ⟨gs, hgs⟩ := framesWithin_prefix fs h
    rw [← hgs, receiveAll_append]
    exact Traced.out_prefix_bind _ _
  rw [← length_out_framesWithin, ← length_out_framesWithin]
  constructor
  · intro h
    rw [h]
  · intro h
    rcases Nat.le_total n m with hle | hle
    · exact (hmore hle).eq_of_length h
    · exact ((hmore hle).eq_of_length h.symm).symm

/-! ## Runs -/

/-- The events of `y`, and no access past the end. -/
def Agrees {α β : Type} (x : Decode α) (y : Decode β) : Prop :=
  x.out = y.out ∧ x.result ≠ .error .readPastEnd

theorem Agrees.bind {α β γ δ : Type} {R : α → β → Prop} {x : Decode α} {y : Decode β}
    {f : α → Decode γ} {g : β → Decode δ} (h : Sim R x y) (hy : y.result ≠ .error .readPastEnd)
    (hfg : ∀ a b, y.result = .ok b → R a b → Agrees (f a) (g b)) :
    Agrees (x >>= f) (y >>= g) := by
  cases hr : y.result with
  | error e =>
      have hx := (h.error_iff e).mpr hr
      rw [Traced.bind_of_error hx, Traced.bind_of_error hr]
      refine ⟨h.out_eq, fun hx => hy ?_⟩
      cases hx
      exact hr
  | ok b =>
      obtain ⟨a, hx, hab⟩ := h.ok_right hr
      obtain ⟨hout, hfault⟩ := hfg a b hr hab
      rw [Traced.bind_of_ok hx, Traced.bind_of_ok hr]
      refine ⟨?_, hfault⟩
      dsimp only
      rw [h.out_eq, hout]

/-- A read that ends inside of a frame is the last one. -/
theorem decodeCalls_front {f : Frame} {tail missing : List UInt8} (he : f.Emitted)
    (hw : f.wire = tail ++ missing) (htail : tail ≠ []) (hm : missing ≠ []) {gs : List Frame}
    (hlen : (wires gs ++ tail).length < MAX_FRAMESIZE) (p : WSProtocol) (ds : List (List UInt8)) :
    Sim (fun _ _ => True) (decodeCalls p ((wires gs ++ tail) :: ds))
      (receiveAll p.reassembled gs >>= fun _ => (Traced.fail
        (if tail.length < f.reach then .readPastEnd else .assertion) : Decode (List UInt8))) := by
  rw [decodeCalls, List.foldlM_cons]
  exact Sim.bind_fail (decodeFrame_front he hw hm htail p gs hlen) fun q => decodeCalls q ds

/-- Reads that end between two frames deliver what the frames deliver. -/
theorem decodeCalls_between {fs : List Frame} (he : ∀ f ∈ fs, f.Emitted)
    {ds : List (List UInt8)} (hd : wires fs = ds.flatten) (hne : ∀ d ∈ ds, d ≠ [])
    (p : WSProtocol) (hcuts : CutsBetween p.reassembled fs 0 ds) :
    Agrees (decodeCalls p ds) (receiveAll p.reassembled (framesWithin fs (heard ds))) := by
  induction ds generalizing fs p with
  | nil =>
      rw [heard, framesWithin_zero]
      exact ⟨rfl, fun h => by cases h⟩
  | cons d ds ih =>
      by_cases hlen : d.length < MAX_FRAMESIZE
      case neg =>
        rw [heard, if_neg hlen, framesWithin_zero, decodeCalls, List.foldlM_cons, decodeFrame,
          Traced.require_false hlen, Traced.fail_bind, Traced.fail_bind]
        exact ⟨rfl, fun h => by cases h⟩
      rw [heard, if_pos hlen]
      rw [CutsBetween, Nat.zero_add] at hcuts
      obtain ⟨hends, hrest⟩ := hcuts hlen
      have hdne := hne d (List.mem_cons_self ..)
      have hdsne : ∀ d ∈ ds, d ≠ [] := fun d hd => hne d (List.mem_cons_of_mem _ hd)
      rw [List.flatten_cons] at hd
      obtain ⟨gs, hs, rfl, ⟨rfl, hds⟩ | ⟨f, fs', tail, missing, rfl, hw, htail, hm, rfl⟩⟩ :=
        split_wires hd
      · have hgs : gs ≠ [] := fun h => hdne (wires_eq_nil.mpr h)
        rw [framesWithin_append, receiveAll_append, decodeCalls, List.foldlM_cons]
        apply Agrees.bind (decodeFrame_wires p hgs hlen) (receiveAll_ne_readPastEnd _ _)
        intro q acc hr hq
        cases hq
        apply ih (fun f hf => he f (List.mem_append_right _ hf)) hds.symm hdsne q
        exact (cutsBetween_append hr hs 0 ds).mp hrest
      · have hf := he f (List.mem_append_right _ (List.mem_cons_self ..))
        have hstop := decodeCalls_front hf hw htail hm hlen p ds
        rw [List.length_append] at hends
        rw [List.length_append, Nat.add_assoc, framesWithin_append, receiveAll_append]
        have hagrees : Agrees
            (receiveAll p.reassembled gs >>= fun _ => (Traced.fail
              (if tail.length < f.reach then .readPastEnd else .assertion) : Decode (List UInt8)))
            (receiveAll p.reassembled gs >>= fun acc =>
              receiveAll acc (framesWithin (f :: fs') (tail.length + heard ds))) := by
          apply Agrees.bind (Sim.refl _) (receiveAll_ne_readPastEnd _ _)
          rintro acc _ hr rfl
          have hreach : ¬tail.length < f.reach := fun hreach =>
            hends ((endsInside_append ..).mpr ⟨acc, hr, (endsInside_front hw htail hm).mpr hreach⟩)
          have hrejected : ¬f.Accepted := by
            intro ha
            rw [Frame.reach_of_ne_nil (hf.accepted_iff.mp ha)] at hreach
            exact hreach (length_lt_wire hw hm)
          rw [if_neg hreach]
          exact ⟨(out_framesWithin_rejected hrejected ..).symm, fun h => by cases h⟩
        exact ⟨hstop.out_eq.trans hagrees.1, fun h => hagrees.2 ((hstop.error_iff _).mp h)⟩

/-- A read that ends inside of a frame makes the decoder read past its end. -/
theorem decodeCalls_inside {fs : List Frame} (he : ∀ f ∈ fs, f.Emitted)
    {ds : List (List UInt8)} (hd : wires fs = ds.flatten) (hne : ∀ d ∈ ds, d ≠ [])
    (p : WSProtocol) (hcuts : ¬CutsBetween p.reassembled fs 0 ds) :
    (decodeCalls p ds).result = .error .readPastEnd := by
  induction ds generalizing fs p with
  | nil => exact absurd trivial hcuts
  | cons d ds ih =>
      by_cases hlen : d.length < MAX_FRAMESIZE
      case neg => exact absurd (fun h => absurd h hlen) hcuts
      obtain ⟨m, hm, hin⟩ : ∃ m, d.length ≤ m ∧ EndsInside p.reassembled fs m := by
        by_cases hends : EndsInside p.reassembled fs (0 + d.length)
        · exact ⟨0 + d.length, by omega, hends⟩
        · obtain ⟨m, hm, hin⟩ := exists_endsInside fun h => hcuts fun _ => ⟨hends, h⟩
          exact ⟨m, by omega, hin⟩
      have hdne := hne d (List.mem_cons_self ..)
      have hdsne : ∀ d ∈ ds, d ≠ [] := fun d hd => hne d (List.mem_cons_of_mem _ hd)
      rw [List.flatten_cons] at hd
      obtain ⟨gs, hs, rfl, ⟨rfl, hds⟩ | ⟨f, fs', tail, missing, rfl, hw, htail, hmiss, rfl⟩⟩ :=
        split_wires hd
      · obtain ⟨n, rfl⟩ := Nat.exists_eq_add_of_le hm
        obtain ⟨acc, hr, -⟩ := (endsInside_append ..).mp hin
        have hgs : gs ≠ [] := fun h => hdne (wires_eq_nil.mpr h)
        obtain ⟨q, hq, hholds⟩ := (decodeFrame_wires p hgs hlen).ok_right hr
        rw [decodeCalls, List.foldlM_cons, Traced.bind_of_ok hq]
        cases hholds
        apply ih (fun f hf => he f (List.mem_append_right _ hf)) hds.symm hdsne q
        intro hrest
        apply hcuts
        intro _
        rw [Nat.zero_add]
        refine ⟨?_, (cutsBetween_append hr hs 0 ds).mpr hrest⟩
        intro hends
        obtain ⟨_, -, hzero⟩ := (endsInside_append p.reassembled gs hs 0).mp hends
        exact endsInside_zero _ _ hzero
      · have hf := he f (List.mem_append_right _ (List.mem_cons_self ..))
        rw [List.length_append] at hm
        obtain ⟨n, rfl⟩ := Nat.exists_eq_add_of_le (Nat.le_of_add_right_le hm)
        obtain ⟨acc, hr, hinside⟩ := (endsInside_append ..).mp hin
        have hreach := lt_reach_of_endsInside hf (length_lt_wire hw hmiss)
          (Nat.le_of_add_le_add_left hm) hinside
        rw [(decodeCalls_front hf hw htail hmiss hlen p ds).error_iff, if_pos hreach,
          Traced.bind_of_ok hr]
        rfl

/-! ## The frames of messages -/

theorem emitted_dataFrame {fin : BitVec 1} {op : BitVec 4} {body : List UInt8}
    (h : body.length < 2 ^ 16) (hfin : fin ≠ 1 → SHORT_LENGTH ≤ body.length) :
    (dataFrame fin op body h).Emitted := by
  have hcode : (dataFrame fin op body h).head.PayloadLen.toNat = min body.length SHORT_LENGTH := by
    change (BitVec.ofNat 7 (min body.length SHORT_LENGTH)).toNat = _
    rw [BitVec.toNat_ofNat]
    exact Nat.mod_eq_of_lt (Nat.lt_of_le_of_lt (Nat.min_le_right ..) (by decide))
  refine ⟨rfl, ?_, ?_⟩
  · intro hf
    rw [hcode]
    exact Nat.min_eq_right (hfin hf)
  · intro hl hnil
    rw [hcode, show body = [] from hnil] at hl
    exact absurd hl (by decide)

theorem emitted_framesOf {msgs : List Message} : ∀ f ∈ framesOf msgs, f.Emitted := by
  intro f hf
  obtain ⟨m, -, hm⟩ := List.mem_flatMap.mp hf
  by_cases hlen : m.payload.length < SLICE_SIZE
  · rw [m.frames_of_lt hlen, List.mem_singleton] at hm
    rw [hm]
    exact emitted_dataFrame _ fun h => absurd rfl h
  · rw [m.frames_of_le (Nat.le_of_not_lt hlen), List.mem_map] at hm
    obtain ⟨i, hi, rfl⟩ := hm
    apply emitted_dataFrame
    intro hfin
    have hfull : i = 0 ∨ i + 1 < m.slice := by
      by_contra h
      exact hfin (if_neg h)
    rw [m.length_sliceBody (Nat.le_of_not_lt hlen) (List.mem_range.mp hi), m.sliceSize_full hfull]
    decide

/-! ## Two ways of cutting a stream -/

/-- One way in which the bytes that are sent for some messages reach a client. -/
structure Segmentation (msgs : List Message) where
  conn : NetConnection
  heap : Nat → UInt8
  reads : List SocketRead
  data_eq : (reads.map SocketRead.data).flatten = sent msgs

namespace Segmentation

variable {msgs : List Message}

/-- The data of the reads. -/
def data (c : Segmentation msgs) : List (List UInt8) := c.reads.map SocketRead.data

/-- The client receives the reads. -/
def run (c : Segmentation msgs) : Decode WSNet := WSNet.handleReads ⟨c.conn, .new c.heap⟩ c.reads

theorem wires_eq (c : Segmentation msgs) : wires (framesOf msgs) = c.data.flatten := by
  rw [← sent_eq, ← c.data_eq]
  rfl

theorem data_ne_nil (c : Segmentation msgs) : ∀ d ∈ c.data, d ≠ [] := by
  intro d hd
  obtain ⟨r, -, rfl⟩ := List.mem_map.mp hd
  exact r.nonempty

theorem run_sim (c : Segmentation msgs) :
    Sim (fun net p => net.proto = p) c.run (decodeCalls (.new c.heap) c.data) :=
  WSNet.handleReads_sim _ _

/-- No frame is cut. -/
theorem run_between (c : Segmentation msgs) (h : CutsBetween [] (framesOf msgs) 0 c.data) :
    Agrees c.run (receiveAll [] (framesWithin (framesOf msgs) (heard c.data))) := by
  obtain ⟨hout, hresult⟩ := decodeCalls_between emitted_framesOf c.wires_eq c.data_ne_nil
    (.new c.heap) h
  exact ⟨c.run_sim.out_eq.trans hout, fun hr => hresult ((c.run_sim.error_iff _).mp hr)⟩

/-- A frame is cut. -/
theorem run_inside (c : Segmentation msgs) (h : ¬CutsBetween [] (framesOf msgs) 0 c.data) :
    c.run.result = .error .readPastEnd :=
  (c.run_sim.error_iff _).mpr
    (decodeCalls_inside emitted_framesOf c.wires_eq c.data_ne_nil (.new c.heap) h)

end Segmentation

/-- Two ways of cutting the same stream lead to the same invocations of the callback, and to no
access outside of the bytes received. -/
structure SameDeliveries {msgs : List Message} (a b : Segmentation msgs) : Prop where
  out_eq : a.run.out = b.run.out
  left_within : a.run.result ≠ .error .readPastEnd
  right_within : b.run.result ≠ .error .readPastEnd

/-- This is so exactly if neither way cuts a frame, and the first reads that are too long for
`decodeFrame`, if there are any, come after equally many messages. -/
theorem segmentation_iff {msgs : List Message} (a b : Segmentation msgs) :
    SameDeliveries a b ↔
      CutsBetween [] (framesOf msgs) 0 a.data ∧ CutsBetween [] (framesOf msgs) 0 b.data ∧
        completed [] (framesOf msgs) (heard a.data) =
          completed [] (framesOf msgs) (heard b.data) := by
  rw [← out_framesWithin_iff]
  constructor
  · intro h
    have ha : CutsBetween [] (framesOf msgs) 0 a.data := by
      by_contra hcuts
      exact h.left_within (a.run_inside hcuts)
    have hb : CutsBetween [] (framesOf msgs) 0 b.data := by
      by_contra hcuts
      exact h.right_within (b.run_inside hcuts)
    refine ⟨ha, hb, ?_⟩
    rw [← (a.run_between ha).1, ← (b.run_between hb).1]
    exact h.out_eq
  · rintro ⟨ha, hb, hout⟩
    obtain ⟨haout, haresult⟩ := a.run_between ha
    obtain ⟨hbout, hbresult⟩ := b.run_between hb
    exact ⟨haout.trans (hout.trans hbout.symm), haresult, hbresult⟩

/-- A text of one byte. -/
def oneByte : Message := .text [97] (List.cons_ne_nil _ _)

/-- Its frame comes in one read. -/
def wholeFrame : Segmentation [oneByte] where
  conn := .new ⟨0, fun _ => 0⟩ false
  heap := fun _ => 0
  reads := [⟨[0x11, 0x03, 0x02, 0x08, 0x20, 0x80, 0x63], List.cons_ne_nil _ _, ⟨0, fun _ => 0⟩,
    fun _ => 0⟩]
  data_eq := by decide

/-- The key is cut in the middle. -/
def cutFrame : Segmentation [oneByte] where
  conn := .new ⟨0, fun _ => 0⟩ false
  heap := fun _ => 0
  reads := [⟨[0x11, 0x03, 0x02, 0x08], List.cons_ne_nil _ _, ⟨0, fun _ => 0⟩, fun _ => 0⟩,
    ⟨[0x20, 0x80, 0x63], List.cons_ne_nil _ _, ⟨0, fun _ => 0⟩, fun _ => 0⟩]
  data_eq := by decide

theorem not_sameDeliveries_cutFrame : ¬SameDeliveries wholeFrame cutFrame := by
  intro h
  refine h.right_within (cutFrame.run_inside ?_)
  intro hcuts
  have hframes : framesOf [oneByte] =
      [dataFrame 1 oneByte.type.code (xorMask oneByte.payload) (by decide)] :=
    (List.append_nil _).trans (oneByte.frames_of_lt (by decide))
  rw [hframes] at hcuts
  apply (hcuts (by decide)).1
  rw [EndsInside, if_pos (by decide)]
  decide

end WebsocketCpp
