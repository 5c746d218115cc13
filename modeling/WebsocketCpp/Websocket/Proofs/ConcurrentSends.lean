import Mathlib.Data.List.Induction
import WebsocketCpp.Misc.Interleaving
import WebsocketCpp.Websocket.Proofs.FrameSemantics
import WebsocketCpp.Websocket.Proofs.NoByteTwice
import WebsocketCpp.Websocket.Proofs.RoundTrip

/-!
# Two messages at once

Two threads send a message each over one connection. `encodeFrame` hands on every frame by itself
(`websocket/WSProtocol.cpp:204-224`), so that the frames reach the decoder in any interleaving, and
the decoder has one buffer for them. Messages of one frame do no harm there. Two sliced messages mix
in some interleaving, unless neither of them can be delivered at all (`concurrentSends_iff`).
-/

namespace WebsocketCpp

open Fragment

/-- Calls of `decodeFrame` on the frames of two messages in some interleaving. The flag of a frame is
the thread it comes from. -/
structure Interleaves (msgs : Bool → Message) (calls : List (List (Bool × Frame))) : Prop where
  frameCalls : FrameCalls (calls.map (List.map Prod.snd))
  inOrder : ∀ s, sentBy s calls.flatten = (msgs s).frames

/-- The calls of the callback, for a new decoder. -/
def received (mem : Nat → UInt8) (calls : List (List Frame)) : List FrameCall :=
  (decodeCalls (.new mem) (calls.map wires)).out

/-- The frames of one message, then those of the other, in a call each. -/
def oneByOne (msgs : Bool → Message) (s : Bool) : List (List Frame) :=
  ((msgs s).frames ++ (msgs !s).frames).map fun f => [f]

/-- The thread a payload byte comes from. -/
def senderOf {calls : List (List (Bool × Frame))}
    (x : PayloadByte (calls.map (List.map Prod.snd))) : Option Bool :=
  (calls.flatten.map Prod.fst)[x.front.length]?

/-- The messages do not mix: as many are delivered as with one send after the other, and none
contains bytes of both. -/
structure Unmixed (mem : Nat → UInt8) (msgs : Bool → Message)
    (calls : List (List (Bool × Frame))) : Prop where
  count : ∃ s, (received mem (calls.map (List.map Prod.snd))).length =
    (received mem (oneByOne msgs s)).length
  oneSender : ∀ (k : Nat) (x y : PayloadByte (calls.map (List.map Prod.snd))),
    x.ContainedIn mem k → y.ContainedIn mem k → senderOf x = senderOf y

/-- The most that one message can be spread over the buffer: it is filled up with full slices once,
and once behind a slice of another message. -/
def longestMixed : Nat := MAX_FRAMESIZE / SLICE_SIZE * SLICE_SIZE + (MAX_FRAMESIZE - SLICE_SIZE)

/-- The last slice of the message is received in some interleaving with another sliced message. -/
def Message.CanComplete (m : Message) : Prop := 0 < m.lastlen ∧ m.payload.length ≤ longestMixed

/-- One of the messages is not sliced, or neither of them can be delivered. -/
def Separable (msgs : Bool → Message) : Prop :=
  (∃ s, (msgs s).payload.length < SLICE_SIZE) ∨ ∀ s, ¬(msgs s).CanComplete

/-! ## Bytes and their senders -/

theorem flatten_map_snd (calls : List (List (Bool × Frame))) :
    (calls.map (List.map Prod.snd)).flatten = calls.flatten.map Prod.snd := by
  rw [List.map_flatten]

/-- The fragments of an interleaving, with their senders. -/
def fragments (order : List (Bool × Frame)) : List (Bool × Fragment UInt8) :=
  order.map fun x => (x.1, x.2.fragment)

theorem fragments_append (xs ys : List (Bool × Frame)) :
    fragments (xs ++ ys) = fragments xs ++ fragments ys := List.map_append

theorem fragments_cons (s : Bool) (f : Frame) (xs : List (Bool × Frame)) :
    fragments ((s, f) :: xs) = (s, f.fragment) :: fragments xs := rfl

theorem map_snd_fragments (order : List (Bool × Frame)) :
    (fragments order).map Prod.snd = (order.map Prod.snd).map Frame.fragment := by
  simp [fragments]

/-- A byte bears the label of its frame. -/
theorem senderOf_eq {calls : List (List (Bool × Frame))}
    (x : PayloadByte (calls.map (List.map Prod.snd))) :
    senderOf x = some (labelOf (fragments calls.flatten) false x.number) := by
  have hsplit := x.flatten_eq
  rw [flatten_map_snd] at hsplit
  obtain ⟨pre, rest, horder, hpre, hrest⟩ := List.map_eq_append_iff.mp hsplit
  obtain ⟨⟨s, f⟩, post, rfl, hf, -⟩ := List.map_eq_cons_iff.mp hrest
  obtain rfl : f = x.frame := hf
  have hlen : x.front.length = pre.length := by rw [← hpre, List.length_map]
  have hchunks : (((fragments pre).map labelled).flatMap chunk).length =
      ((x.front.map Frame.fragment).flatMap chunk).length := by
    rw [← hpre]
    clear hsplit horder hpre hrest hlen
    induction pre with
    | nil => rfl
    | cons y ys ih =>
        simp only [fragments, List.map_cons, List.flatMap_cons, List.length_append,
          length_chunk_labelled] at ih ⊢
        rw [ih]
  have hoffset : x.offset < (labelled (s, x.frame.fragment)).chunk.length := by
    rw [length_chunk_labelled, Frame.chunk_fragment, Frame.length_payload]
    exact x.offset_lt
  have hlabel : labelOf (fragments calls.flatten) false x.number = s := by
    rw [labelOf, horder, fragments_append, fragments_cons, List.map_append, List.flatMap_append,
      PayloadByte.number, List.getD_append_right _ _ _ _ (by rw [hchunks]; omega), hchunks,
      Nat.add_sub_cancel_left, List.map_cons, List.flatMap_cons,
      List.getD_append _ _ _ _ hoffset, List.getD_eq_getElem _ _ hoffset]
    exact mem_chunk_labelled (List.getElem_mem hoffset)
  rw [senderOf, hlabel, horder, List.map_append, List.map_cons, hlen]
  simp

/-- No delivery contains bytes of both exactly if the receiver, run on the senders' names, delivers
nothing mixed. -/
theorem oneSender_iff (mem : Nat → UInt8) {calls : List (List (Bool × Frame))}
    (h : FrameCalls (calls.map (List.map Prod.snd))) :
    (∀ (k : Nat) (x y : PayloadByte (calls.map (List.map Prod.snd))),
      x.ContainedIn mem k → y.ContainedIn mem k → senderOf x = senderOf y) ↔
    ∀ m ∈ replay [] (((fragments calls.flatten).map labelled).take
      (receivedCount [] (calls.flatten.map Prod.snd))), Uniform m := by
  rw [uniform_iff_sources _ _ false, map_snd_fragments, ← flatten_map_snd]
  constructor
  · intro hone m hm t ht t' ht'
    obtain ⟨k, hk, rfl⟩ := List.getElem_of_mem hm
    obtain ⟨x, rfl⟩ := exists_payloadByte (lt_of_mem_sources hm ht)
    obtain ⟨y, rfl⟩ := exists_payloadByte (lt_of_mem_sources hm ht')
    have hx := (containedIn_iff mem h x k).mpr ⟨_, List.getElem?_eq_getElem hk, ht⟩
    have hy := (containedIn_iff mem h y k).mpr ⟨_, List.getElem?_eq_getElem hk, ht'⟩
    have hxy := hone k x y hx hy
    rw [senderOf_eq, senderOf_eq] at hxy
    exact Option.some.inj hxy
  · intro huniform k x y hx hy
    obtain ⟨m, hm, hxm⟩ := (containedIn_iff mem h x k).mp hx
    obtain ⟨m', hm', hym⟩ := (containedIn_iff mem h y k).mp hy
    rw [hm] at hm'
    cases hm'
    rw [senderOf_eq, senderOf_eq, huniform m (List.mem_of_getElem? hm) _ hxm _ hym]

/-! ## A message of one frame -/

theorem received_eq (mem : Nat → UInt8) {calls : List (List Frame)} (h : FrameCalls calls) :
    received mem calls = (receiveAll [] calls.flatten).out :=
  (decodeCalls_wires (.new mem) h).out_eq

theorem frameCalls_singletons (fs : List Frame) : FrameCalls (fs.map fun f => [f]) where
  nonempty := by simp
  length_lt := by
    intro c hc
    obtain ⟨f, -, rfl⟩ := List.mem_map.mp hc
    exact length_wires_singleton_lt f

theorem received_oneByOne (mem : Nat → UInt8) (msgs : Bool → Message) (s : Bool) :
    received mem (oneByOne msgs s) =
      (receiveAll [] ((msgs s).frames ++ (msgs !s).frames)).out := by
  have hflat : (oneByOne msgs s).flatten = (msgs s).frames ++ (msgs !s).frames := by
    rw [oneByOne, ← List.flatMap_def, List.flatMap_singleton']
  rw [← hflat]
  exact received_eq mem (frameCalls_singletons _)

/-- A complete frame among the slices of another message is delivered by itself, unless the decoder
has stopped before. -/
theorem length_receiveAll_among (m : Message) (h : m.payload.length < SLICE_SIZE)
    (fs gs : List Frame) :
    (receiveAll [] (fs ++ (m.frames ++ gs))).out.length =
        (receiveAll [] (m.frames ++ (fs ++ gs))).out.length ∨
      (receiveAll [] (fs ++ (m.frames ++ gs))).out.length =
        (receiveAll [] (fs ++ gs ++ m.frames)).out.length := by
  have hframes (acc : List UInt8) := m.receiveAll_frames_short acc h
  rw [receiveAll_append, List.append_assoc, receiveAll_append [] fs]
  cases hfs : (receiveAll [] fs).result with
  | error e =>
      right
      rw [Traced.bind_of_error hfs, Traced.bind_of_error hfs]
  | ok acc =>
      left
      have hswap : receiveAll [] (m.frames ++ (fs ++ gs)) =
          receiveAll [] m.frames >>= fun acc => receiveAll acc fs >>= fun acc => receiveAll acc gs := by
        rw [receiveAll_append]
        simp only [receiveAll_append]
      rw [hswap, Traced.bind_of_ok hfs, receiveAll_append, hframes, hframes, Traced.mk_bind,
        Traced.mk_bind, Traced.bind_of_ok hfs]
      simp only [List.length_append, List.length_cons, List.length_nil]
      omega

/-- Where the frame of a message that is not sliced stands in an interleaving. -/
theorem Interleaves.split {msgs : Bool → Message} {calls : List (List (Bool × Frame))}
    (h : Interleaves msgs calls) {s : Bool} (hshort : (msgs s).payload.length < SLICE_SIZE) :
    ∃ f pre post, (msgs s).frames = [f] ∧ calls.flatten = pre ++ (s, f) :: post ∧
      (∀ x ∈ pre, x.1 = !s) ∧ (∀ x ∈ post, x.1 = !s) ∧
      (msgs !s).frames = pre.map Prod.snd ++ post.map Prod.snd := by
  have hone := h.inOrder s
  rw [(msgs s).frames_of_lt hshort] at hone
  obtain ⟨pre, post, horder, hpre, hpost⟩ := split_of_sentBy_eq_singleton hone
  have hother {x : Bool × Frame} (hx : x.1 ≠ s) : x.1 = !s := Bool.eq_not_of_ne hx
  have hpre' : ∀ x ∈ pre, x.1 = !s := fun x hx => hother (hpre x hx)
  have hpost' : ∀ x ∈ post, x.1 = !s := fun x hx => hother (hpost x hx)
  refine ⟨_, pre, post, (msgs s).frames_of_lt hshort, horder, hpre', hpost', ?_⟩
  have hs : (s, dataFrame 1 (msgs s).type.code _ ((msgs s).length_xorMask_lt hshort)).1 ≠ !s :=
    Ne.symm (by simp)
  rw [← h.inOrder, horder, sentBy_append, sentBy_cons_of_ne hs, sentBy_eq_map hpre',
    sentBy_eq_map hpost']

theorem unmixed_of_short (mem : Nat → UInt8) {msgs : Bool → Message}
    {calls : List (List (Bool × Frame))} (h : Interleaves msgs calls) {s : Bool}
    (hshort : (msgs s).payload.length < SLICE_SIZE) : Unmixed mem msgs calls := by
  obtain ⟨f, pre, post, hf, horder, hpre, hpost, hother⟩ := h.split hshort
  constructor
  · -- the frame is delivered as if it came first, or the decoder stops before it
    have hrec : received mem (calls.map (List.map Prod.snd)) =
        (receiveAll [] (pre.map Prod.snd ++ ((msgs s).frames ++ post.map Prod.snd))).out := by
      rw [received_eq mem h.frameCalls, flatten_map_snd, horder, hf]
      simp
    have hamong := length_receiveAll_among (msgs s) hshort (pre.map Prod.snd) (post.map Prod.snd)
    rw [← hother] at hamong
    rcases hamong with hfirst | hlast
    · exact ⟨s, by rw [hrec, received_oneByOne, hfirst]⟩
    · exact ⟨!s, by rw [hrec, received_oneByOne, hlast, Bool.not_not]⟩
  · -- all messages in pieces are the other one's
    rw [oneSender_iff mem h.frameCalls]
    apply uniform_replay (s := !s) (by simp)
    intro g hg
    obtain ⟨x, hx, rfl⟩ := List.mem_map.mp (List.mem_of_mem_take hg)
    obtain ⟨y, hy, rfl⟩ := List.mem_map.mp hx
    rw [horder] at hy
    by_cases hys : y.1 = s
    · right
      have hmem : y.2 ∈ sentBy s calls.flatten := by
        rw [horder]
        exact List.mem_map_of_mem (List.mem_filter.mpr ⟨hy, decide_eq_true hys⟩)
      rw [h.inOrder, (msgs s).frames_of_lt hshort, List.mem_singleton] at hmem
      refine ⟨_, by rw [hmem, (msgs s).fragment_dataFrame]; rfl, ?_⟩
      exact Uniform.of_forall_eq fun b hb => by obtain ⟨_, -, rfl⟩ := List.mem_map.mp hb; rfl
    · left
      intro b hb
      rw [mem_chunk_labelled hb]
      exact Bool.eq_not_of_ne hys

/-! ## Messages that cannot be delivered -/

/-- The first frame that delivers anything. -/
theorem exists_completing {acc : List UInt8} {fs : List Frame} (h : (receiveAll acc fs).out ≠ []) :
    ∃ pre f post acc', fs = pre ++ f :: post ∧ (∀ g ∈ pre, g.fragment.completes = false) ∧
      (receiveAll acc pre).result = .ok acc' ∧ f.Accepted ∧ f.fragment.Fits MAX_FRAMESIZE acc' ∧
      f.fragment.completes = true := by
  induction fs generalizing acc with
  | nil => exact absurd rfl h
  | cons f fs ih =>
      rw [receiveAll_cons] at h
      rcases receive_cases acc f with ⟨ha, hf, hok⟩ | ⟨-, e, -, hfail⟩
      · cases hc : f.fragment.completes with
        | true => exact ⟨[], f, fs, acc, rfl, by simp, rfl, ha, hf, hc⟩
        | false =>
            have hemits : f.fragment.emits acc = [] := by
              cases hfrag : f.fragment <;> rw [hfrag] at hc <;> first | rfl | cases hc
            rw [hok, hemits, Traced.mk_bind] at h
            obtain ⟨pre, g, post, acc', rfl, hpre, hacc', hrest⟩ := ih h
            refine ⟨f :: pre, g, post, acc', rfl, List.forall_mem_cons.mpr ⟨hc, hpre⟩, ?_, hrest⟩
            rw [receiveAll_cons, Traced.bind_of_ok (by rw [hok])]
            exact hacc'
      · rw [hfail] at h
        exact absurd rfl h

namespace Message

variable (m : Message)

theorem completes_sliceFrame (i : Nat) :
    (m.sliceFrame i).fragment.completes = false ↔ i = 0 ∨ i + 1 < m.slice := by
  rw [completes_fragment, decide_eq_false_iff_not]
  constructor
  · intro hfin
    by_contra h
    exact hfin (if_neg h)
  · intro h
    rw [show (m.sliceFrame i).head.FIN = 0 from if_pos h]
    decide

theorem length_chunk_sliceFrame (hlen : SLICE_SIZE ≤ m.payload.length) {i : Nat} (hi : i < m.slice) :
    (m.sliceFrame i).fragment.chunk.length = m.sliceSize i := by
  rw [Frame.chunk_fragment, Frame.length_payload]
  exact m.length_sliceBody hlen hi

/-- A full slice is a first or a further piece of `SLICE_SIZE` bytes. -/
theorem fragment_fullSlice (hlen : SLICE_SIZE ≤ m.payload.length) {i : Nat} (hi : i < m.slice)
    (h : i = 0 ∨ i + 1 < m.slice) : ∃ c : List UInt8, c.length = SLICE_SIZE ∧
      (m.sliceFrame i).fragment = if i = 0 then .first c else .middle c := by
  have hchunk := m.length_chunk_sliceFrame hlen hi
  rw [m.sliceSize_full h] at hchunk
  by_cases hzero : i = 0
  · subst hzero
    rw [m.fragment_sliceFrame_zero] at hchunk ⊢
    exact ⟨_, hchunk, (if_pos rfl).symm⟩
  · rw [m.fragment_sliceFrame_middle hzero (h.resolve_left hzero)] at hchunk ⊢
    exact ⟨_, hchunk, (if_neg hzero).symm⟩

end Message

/-- The next frame of a thread. -/
theorem frame_eq_sliceFrame {m : Message} (hlen : SLICE_SIZE ≤ m.payload.length)
    {before : List Frame} {f : Frame} (h : before ++ [f] <+: m.frames) :
    before.length < m.slice ∧ f = m.sliceFrame before.length := by
  rcases h with ⟨after, hafter⟩
  apply m.eq_sliceFrame_of_getElem? hlen
  rw [← hafter, List.append_assoc, List.getElem?_append_right (Nat.le_refl _), Nat.sub_self]
  rfl

/-- What the buffer holds at least after `n` slices of a thread: all of them if the thread is alone
so far, and otherwise all but what filled the buffer once. -/
def HoldsSlices (n other held : Nat) : Prop :=
  if other = 0 then n * SLICE_SIZE ≤ held
  else n * SLICE_SIZE + SLICE_SIZE ≤ MAX_FRAMESIZE / SLICE_SIZE * SLICE_SIZE + held

namespace HoldsSlices

variable {n other held : Nat}

theorem zero_zero (held : Nat) : HoldsSlices 0 0 held := by
  rw [HoldsSlices, if_pos rfl, Nat.zero_mul]
  exact Nat.zero_le _

/-- A thread's first slice. -/
theorem one (other : Nat) : HoldsSlices 1 other SLICE_SIZE := by
  rw [HoldsSlices]
  split <;> decide

/-- A thread's further slice. -/
theorem succ (h : HoldsSlices n other held) : HoldsSlices (n + 1) other (held + SLICE_SIZE) := by
  rw [HoldsSlices] at h
  rw [HoldsSlices, Nat.succ_mul]
  split at h <;> rename_i hcase
  · rw [if_pos hcase]
    omega
  · rw [if_neg hcase]
    omega

/-- The other thread's first slice: what was in the buffer before found room there. -/
theorem other_one (h : HoldsSlices n 0 held) (hdvd : SLICE_SIZE ∣ held) (hle : held ≤ MAX_FRAMESIZE) :
    HoldsSlices n 1 SLICE_SIZE := by
  have hmult : held ≤ MAX_FRAMESIZE / SLICE_SIZE * SLICE_SIZE := by
    obtain ⟨q, rfl⟩ := hdvd
    rw [Nat.mul_comm] at hle ⊢
    exact Nat.mul_le_mul_right _ ((Nat.le_div_iff_mul_le (by decide)).mpr hle)
  rw [HoldsSlices, if_pos rfl] at h
  rw [HoldsSlices, if_neg (by decide)]
  omega

/-- The other thread's further slice. -/
theorem other_succ (h : HoldsSlices n other held) (hpos : other ≠ 0) :
    HoldsSlices n (other + 1) (held + SLICE_SIZE) := by
  rw [HoldsSlices, if_neg hpos] at h
  rw [HoldsSlices, if_neg (Nat.succ_ne_zero other)]
  omega

end HoldsSlices

/-- What a further frame leaves in the buffer, for its own thread and for the other one. -/
theorem holdsSlices_concat {pre : List (Bool × Frame)} {s : Bool} {f : Frame} {n : Nat}
    (hs : HoldsSlices ((sentBy s pre).length + 1) (sentBy (!s) pre).length n)
    (hs' : HoldsSlices (sentBy (!s) pre).length ((sentBy s pre).length + 1) n) (b : Bool) :
    HoldsSlices (sentBy b (pre ++ [(s, f)])).length (sentBy (!b) (pre ++ [(s, f)])).length n := by
  have hself : (sentBy s (pre ++ [(s, f)])).length = (sentBy s pre).length + 1 := by
    rw [sentBy_concat_self, List.length_append, List.length_singleton]
  have hother : sentBy (!s) (pre ++ [(s, f)]) = sentBy (!s) pre :=
    sentBy_concat_of_ne (Ne.symm (by simp)) pre f
  by_cases hb : b = s
  · rwa [hb, hself, hother]
  · rwa [Bool.eq_not_of_ne hb, hother, Bool.not_not, hself]

/-- The buffer behind full slices of both threads: it holds whole slices, and what is behind the last
first one. -/
structure Held (pre : List (Bool × Frame)) (held : Nat) : Prop where
  dvd : SLICE_SIZE ∣ held
  le : held ≤ MAX_FRAMESIZE
  slices : ∀ s, HoldsSlices (sentBy s pre).length (sentBy (!s) pre).length held

/-- One full slice more. -/
theorem Held.concat {pre : List (Bool × Frame)} {acc c : List UInt8} (h : Held pre acc.length)
    {s : Bool} {f : Frame} (hc : c.length = SLICE_SIZE)
    (hfrag : f.fragment = if (sentBy s pre).length = 0 then .first c else .middle c)
    (hfits : f.fragment.Fits MAX_FRAMESIZE acc) :
    Held (pre ++ [(s, f)]) (f.fragment.keep acc).length := by
  have hs := h.slices s
  have hs' := h.slices (!s)
  rw [Bool.not_not] at hs'
  by_cases hzero : (sentBy s pre).length = 0
  · rw [if_pos hzero] at hfrag
    have hkeep : (f.fragment.keep acc).length = SLICE_SIZE := by rw [hfrag]; exact hc
    have hself : HoldsSlices ((sentBy s pre).length + 1) (sentBy (!s) pre).length SLICE_SIZE := by
      rw [hzero]
      exact .one _
    have hother : HoldsSlices (sentBy (!s) pre).length ((sentBy s pre).length + 1) SLICE_SIZE := by
      rw [hzero] at hs' ⊢
      exact hs'.other_one h.dvd h.le
    rw [hkeep]
    exact ⟨Nat.dvd_refl _, by decide, holdsSlices_concat hself hother⟩
  · rw [if_neg hzero] at hfrag
    have hkeep : (f.fragment.keep acc).length = acc.length + SLICE_SIZE := by
      rw [hfrag]
      exact (List.length_append ..).trans (congrArg _ hc)
    have hroom : acc.length + SLICE_SIZE ≤ MAX_FRAMESIZE := by
      rw [hfrag] at hfits
      exact hc ▸ hfits
    rw [hkeep]
    exact ⟨Nat.dvd_add h.dvd (Nat.dvd_refl _), hroom,
      holdsSlices_concat hs.succ (hs'.other_succ hzero)⟩

/-- Full slices fill the buffer from the last first slice on. -/
theorem held_of_prefix {msgs : Bool → Message} (hlong : ∀ s, SLICE_SIZE ≤ (msgs s).payload.length)
    (pre : List (Bool × Frame)) (hin : ∀ s, sentBy s pre <+: (msgs s).frames)
    (hno : ∀ x ∈ pre, x.2.fragment.completes = false) {acc : List UInt8}
    (hacc : (receiveAll [] (pre.map Prod.snd)).result = .ok acc) : Held pre acc.length := by
  induction pre using List.reverseRecOn generalizing acc with
  | nil =>
      cases hacc
      exact ⟨Nat.dvd_zero _, Nat.zero_le _, fun _ => .zero_zero _⟩
  | append_singleton pre x ih =>
      rcases x with ⟨s, f⟩
      have hin' : ∀ s, sentBy s pre <+: (msgs s).frames := fun s' =>
        (sentBy_append s' pre [(s, f)] ▸ List.prefix_append ..).trans (hin s')
      rw [List.map_append, receiveAll_append] at hacc
      rcases Traced.result_bind hacc with ⟨acc0, hacc0, hf⟩
      rw [List.map_singleton, receiveAll_singleton] at hf
      rcases receive_result hf with ⟨-, hfits, rfl⟩
      have hheld := ih hin' (fun x hx => hno x (List.mem_append_left _ hx)) hacc0
      have hself := sentBy_concat_self pre s f
      rcases frame_eq_sliceFrame (hlong s) (hself ▸ hin s) with ⟨hi, hfeq⟩
      have hfull : (sentBy s pre).length = 0 ∨ (sentBy s pre).length + 1 < (msgs s).slice := by
        have hlast := hno (s, f) (List.mem_append_right _ (List.mem_singleton_self _))
        rw [hfeq] at hlast
        exact ((msgs s).completes_sliceFrame _).mp hlast
      rcases (msgs s).fragment_fullSlice (hlong s) hi hfull with ⟨c, hc, hfrag⟩
      rw [← hfeq] at hfrag
      exact hheld.concat hc hfrag hfits

/-- The last slice finds room only if the message is not too long. -/
theorem HoldsSlices.length_le_longestMixed {m : Message} {other held : Nat}
    (h : HoldsSlices (m.payload.length / SLICE_SIZE) other held)
    (hroom : held + m.lastlen ≤ MAX_FRAMESIZE) : m.payload.length ≤ longestMixed := by
  have hbounds := m.slice_bounds
  have hfull : SLICE_SIZE ≤ MAX_FRAMESIZE / SLICE_SIZE * SLICE_SIZE := by decide
  have hcap : SLICE_SIZE ≤ MAX_FRAMESIZE := by decide
  rw [Nat.mul_comm] at hbounds
  rw [longestMixed]
  rw [HoldsSlices] at h
  split at h <;> omega

/-- Neither message is ever delivered: there is no last slice, it is empty, or the buffer is full. -/
theorem out_eq_nil {msgs : Bool → Message} (hlong : ∀ s, SLICE_SIZE ≤ (msgs s).payload.length)
    (hnever : ∀ s, ¬(msgs s).CanComplete) {order : List (Bool × Frame)}
    (hin : ∀ s, sentBy s order = (msgs s).frames) :
    (receiveAll [] (order.map Prod.snd)).out = [] := by
  by_contra hout
  rcases exists_completing hout with ⟨_, f, _, acc, horder, hpre, hacc, ha, hfits, hc⟩
  rcases List.map_eq_append_iff.mp horder with ⟨pre, rest, rfl, rfl, hrest⟩
  rcases List.map_eq_cons_iff.mp hrest with ⟨⟨s, f⟩, post, rfl, rfl, -⟩
  have hin' : ∀ s, sentBy s pre <+: (msgs s).frames := by
    intro s
    rw [← hin s, sentBy_append]
    exact List.prefix_append ..
  have hnext : sentBy s pre ++ [f] <+: (msgs s).frames := by
    rw [← hin s, sentBy_append, show (s, f) :: post = tag s [f] ++ post from rfl, sentBy_append,
      sentBy_tag_self]
    exact List.prefix_append_right_inj _ |>.mpr (List.prefix_append ..)
  have hheld := held_of_prefix hlong pre hin' (fun x hx => hpre x.2 (List.mem_map_of_mem hx)) hacc
  rcases frame_eq_sliceFrame (hlong s) hnext with ⟨hi, rfl⟩
  have hlast : ¬((sentBy s pre).length = 0 ∨ (sentBy s pre).length + 1 < (msgs s).slice) := by
    intro hfull
    rw [((msgs s).completes_sliceFrame _).mpr hfull] at hc
    cases hc
  have hpos : 0 < (msgs s).lastlen := by
    by_contra hzero
    refine (msgs s).not_accepted_sliceFrame (hlong s) hi ?_ ha
    rw [(msgs s).sliceSize_last hlast]
    omega
  have hroom : acc.length + (msgs s).lastlen ≤ MAX_FRAMESIZE := by
    have hchunk := (msgs s).length_chunk_sliceFrame (hlong s) hi
    rw [(msgs s).fragment_sliceFrame_last (by omega) (by omega)] at hfits hchunk
    rw [(msgs s).sliceSize_last hlast] at hchunk
    exact hchunk ▸ hfits
  have hslices : (msgs s).slice = (msgs s).payload.length / SLICE_SIZE + 1 := if_pos hpos
  have hnum : (sentBy s pre).length = (msgs s).payload.length / SLICE_SIZE := by omega
  exact hnever s ⟨hpos, (hnum ▸ hheld.slices s).length_le_longestMixed hroom⟩

theorem unmixed_of_never (mem : Nat → UInt8) {msgs : Bool → Message}
    (hlong : ∀ s, SLICE_SIZE ≤ (msgs s).payload.length) (hnever : ∀ s, ¬(msgs s).CanComplete)
    {calls : List (List (Bool × Frame))} (h : Interleaves msgs calls) : Unmixed mem msgs calls := by
  have hnothing := out_eq_nil hlong hnever h.inOrder
  constructor
  · refine ⟨false, ?_⟩
    have hseq : ∀ s, sentBy s (tag false (msgs false).frames ++ tag true (msgs true).frames) =
        (msgs s).frames := by
      intro s
      cases s <;> simp [sentBy_append]
    have hone := out_eq_nil hlong hnever hseq
    rw [List.map_append, map_snd_tag, map_snd_tag] at hone
    rw [received_eq mem h.frameCalls, flatten_map_snd, hnothing, received_oneByOne, Bool.not_false,
      hone]
  · rw [oneSender_iff mem h.frameCalls]
    rw [out_receiveAll, List.map_eq_nil_iff, replay_eq_sources _ _ 0, List.map_eq_nil_iff,
      ← map_snd_fragments] at hnothing
    rw [replay_labelled _ _ false, hnothing]
    simp

/-! ## Messages that mix -/

/-- Frames that are accepted and find room are received. -/
theorem le_receivedCount {acc : List UInt8} {fs : List Frame} (ha : ∀ f ∈ fs, f.Accepted)
    (hfit : AllFit MAX_FRAMESIZE acc (fs.map Frame.fragment)) (gs : List Frame) :
    fs.length ≤ receivedCount acc (fs ++ gs) := by
  induction fs generalizing acc with
  | nil => exact Nat.zero_le _
  | cons f fs ih =>
      obtain ⟨hf, hfs⟩ := List.forall_mem_cons.mp ha
      rw [List.cons_append, receivedCount, if_pos ⟨hf, hfit.1⟩]
      exact Nat.succ_le_succ (ih hfs hfit.2)

namespace Message

variable (m : Message)

/-- A sliced message begins with a full slice. -/
theorem exists_frames_eq_cons (hlen : SLICE_SIZE ≤ m.payload.length) :
    ∃ rest, m.frames = m.sliceFrame 0 :: rest := by
  obtain ⟨n, hn⟩ := Nat.exists_eq_succ_of_ne_zero (Nat.ne_of_gt (m.slice_pos hlen))
  exact ⟨_, by rw [m.frames_of_le hlen, hn, List.range_succ_eq_map, List.map_cons]⟩

theorem accepted_sliceFrame_zero (hlen : SLICE_SIZE ≤ m.payload.length) :
    (m.sliceFrame 0).Accepted :=
  m.accepted_sliceFrame hlen (m.slice_pos hlen) (by rw [m.sliceSize_full (.inl rfl)]; decide)

theorem length_chunks_fullSlices (hlen : SLICE_SIZE ≤ m.payload.length) {is : List Nat}
    (h : ∀ i ∈ is, i < m.slice ∧ (i = 0 ∨ i + 1 < m.slice)) :
    (((is.map m.sliceFrame).map Frame.fragment).flatMap chunk).length = is.length * SLICE_SIZE := by
  induction is with
  | nil => exact (Nat.zero_mul _).symm
  | cons i is ih =>
      obtain ⟨⟨hi, hfull⟩, his⟩ := List.forall_mem_cons.mp h
      rw [List.map_cons, List.map_cons, List.flatMap_cons, List.length_append,
        m.length_chunk_sliceFrame hlen hi, m.sliceSize_full hfull, ih his, List.length_cons,
        Nat.succ_mul, Nat.add_comm]

/-- The slices that fill up the buffer at first, and the rest that finds room behind a slice of
another message. -/
theorem exists_parts (hlen : SLICE_SIZE ≤ m.payload.length) (h : m.CanComplete) :
    ∃ front middle last, m.frames = front ++ (middle ++ [last]) ∧
      AllFit MAX_FRAMESIZE [] (front.map Frame.fragment) ∧
      SLICE_SIZE + (((middle ++ [last]).map Frame.fragment).flatMap chunk).length ≤ MAX_FRAMESIZE ∧
      (∀ f ∈ middle, ∃ c, f.fragment = .middle c) ∧ ∃ c, c ≠ [] ∧ last.fragment = .last c := by
  obtain ⟨hpos, hmax⟩ := h
  have hbounds := m.slice_bounds
  have hone : 0 < m.payload.length / SLICE_SIZE := Nat.div_pos hlen (by decide)
  obtain ⟨j, k, hjk, hj, hjmax, hk⟩ : ∃ j k, m.payload.length / SLICE_SIZE = j + k ∧ 0 < j ∧
      j ≤ MAX_FRAMESIZE / SLICE_SIZE ∧ (k = 0 ∨ j = MAX_FRAMESIZE / SLICE_SIZE) := by
    have hroom : 0 < MAX_FRAMESIZE / SLICE_SIZE := by decide
    exact ⟨min (m.payload.length / SLICE_SIZE) (MAX_FRAMESIZE / SLICE_SIZE),
      m.payload.length / SLICE_SIZE - MAX_FRAMESIZE / SLICE_SIZE, by omega, by omega, by omega,
      by omega⟩
  have hslice : m.slice = j + k + 1 := (if_pos hpos).trans (congrArg (· + 1) hjk)
  have hlast : ¬(j + k = 0 ∨ j + k + 1 < m.slice) := by omega
  have hlastlen : (m.sliceFrame (j + k)).fragment.chunk.length = m.lastlen := by
    rw [m.length_chunk_sliceFrame hlen (by omega), m.sliceSize_last hlast]
  refine ⟨(List.range j).map m.sliceFrame, ((List.range k).map (j + ·)).map m.sliceFrame,
    m.sliceFrame (j + k), ?_, ?_, ?_, ?_, ?_⟩
  · rw [m.frames_of_le hlen, hslice, List.range_succ, List.range_add, List.map_append,
      List.map_append, List.append_assoc]
    rfl
  · apply allFit_of_length_le
    rw [m.length_chunks_fullSlices hlen (fun i hi => by rw [List.mem_range] at hi; omega),
      List.length_range, List.length_nil, Nat.zero_add]
    exact Nat.le_trans (Nat.mul_le_mul_right _ hjmax) (by decide)
  · have hmiddle : ∀ i ∈ (List.range k).map (j + ·), i < m.slice ∧ (i = 0 ∨ i + 1 < m.slice) := by
      intro i hi
      obtain ⟨i', hi', rfl⟩ := List.mem_map.mp hi
      rw [List.mem_range] at hi'
      omega
    rw [List.map_append, List.flatMap_append, List.length_append,
      m.length_chunks_fullSlices hlen hmiddle, List.length_map, List.length_range,
      List.map_singleton, List.flatMap_singleton, hlastlen]
    rw [longestMixed] at hmax
    rw [hjk, Nat.mul_comm, Nat.add_mul] at hbounds
    have hlt := m.lastlen_lt
    have hcap : SLICE_SIZE + SLICE_SIZE ≤ MAX_FRAMESIZE := by decide
    rcases hk with rfl | rfl <;> omega
  · intro f hf
    obtain ⟨i, hi, rfl⟩ := List.mem_map.mp hf
    obtain ⟨i', hi', rfl⟩ := List.mem_map.mp hi
    rw [List.mem_range] at hi'
    exact ⟨_, m.fragment_sliceFrame_middle (by omega) (by omega)⟩
  · refine ⟨_, fun hnil => ?_, m.fragment_sliceFrame_last (by omega) (by omega)⟩
    rw [m.fragment_sliceFrame_last (by omega) (by omega)] at hlastlen
    rw [chunk, hnil, List.length_nil] at hlastlen
    omega

end Message

/-- A first piece in between takes the room of what stood in the buffer. -/
theorem allFit_cut {front rest : List (Fragment UInt8)} {c : List UInt8}
    (hfront : AllFit MAX_FRAMESIZE [] front)
    (hroom : c.length + (rest.flatMap chunk).length ≤ MAX_FRAMESIZE) :
    AllFit MAX_FRAMESIZE [] (front ++ first c :: rest) :=
  allFit_append .. |>.mpr
    ⟨hfront, Nat.le_trans (Nat.le_add_right ..) hroom, allFit_of_length_le _ _ _ hroom⟩

/-- A frame of the other thread among the frames of `s`, and the rest of its frames behind. -/
def slipped (s : Bool) (front : List Frame) (g : Frame) (behind rest : List Frame) :
    List (Bool × Frame) :=
  tag s front ++ tag (!s) [g] ++ tag s behind ++ tag (!s) rest

section

variable {s : Bool} (front : List Frame) (g : Frame) (behind rest : List Frame)

theorem sentBy_slipped (b : Bool) :
    sentBy b (slipped s front g behind rest) = if b = s then front ++ behind else g :: rest := by
  have hne : (!s) ≠ s := by simp
  by_cases hb : b = s
  · simp [slipped, hb, sentBy_append, sentBy_tag_of_ne hne]
  · rw [Bool.eq_not_of_ne hb]
    simp [slipped, sentBy_append, sentBy_tag_of_ne hne.symm]

theorem map_snd_slipped :
    (slipped s front g behind rest).map Prod.snd = front ++ g :: behind ++ rest := by
  simp [slipped]

/-- The senders' names in the buffer. -/
theorem labelled_slipped {middle : List Frame} {last : Frame} {c c' : List UInt8}
    (hg : g.fragment = .first c) (hlast : last.fragment = .last c') :
    (fragments (slipped s front g (middle ++ [last]) rest)).map labelled =
      (tag s (front.map Frame.fragment)).map labelled ++ first (c.map fun _ => !s) ::
        (tag s (middle.map Frame.fragment)).map labelled ++
      Fragment.last (c'.map fun _ => s) :: (tag (!s) (rest.map Frame.fragment)).map labelled := by
  simp [fragments, slipped, tag, hg, hlast, labelled, Fragment.map, Function.comp_def]

end

/-- A thread's first slice among the slices of a message: the last slice of the message is received
behind it. -/
theorem not_uniform_of_canComplete {msgs : Bool → Message}
    (hlong : ∀ s, SLICE_SIZE ≤ (msgs s).payload.length) {s : Bool} (h : (msgs s).CanComplete) :
    ∃ order : List (Bool × Frame), (∀ s, sentBy s order = (msgs s).frames) ∧
      ¬∀ m ∈ replay [] (((fragments order).map labelled).take
        (receivedCount [] (order.map Prod.snd))), Uniform m := by
  obtain ⟨front, middle, last, hframes, hfront, hroom, hmiddle, c, hc, hlast⟩ :=
    (msgs s).exists_parts (hlong s) h
  obtain ⟨rest, hrest⟩ := (msgs !s).exists_frames_eq_cons (hlong !s)
  refine ⟨slipped s front ((msgs !s).sliceFrame 0) (middle ++ [last]) rest, ?_, ?_⟩
  · intro b
    rw [sentBy_slipped]
    by_cases hb : b = s
    · rw [if_pos hb, hb, hframes]
    · rw [if_neg hb, Bool.eq_not_of_ne hb, hrest]
  · -- everything up to the last slice is received
    intro huniform
    have hself := (msgs s).accepted_frames_iff.mpr fun ha => absurd ha.2 (Nat.ne_of_gt h.1)
    rw [hframes] at hself
    have hsize : ((msgs !s).payload.take SLICE_SIZE).length = SLICE_SIZE :=
      List.length_take_of_le (hlong !s)
    have hfit : AllFit MAX_FRAMESIZE []
        ((front ++ (msgs !s).sliceFrame 0 :: (middle ++ [last])).map Frame.fragment) := by
      rw [List.map_append, List.map_cons, (msgs !s).fragment_sliceFrame_zero]
      exact allFit_cut hfront (hsize.symm ▸ hroom)
    have haccepted : ∀ f ∈ front ++ (msgs !s).sliceFrame 0 :: (middle ++ [last]), f.Accepted := by
      rw [List.forall_mem_append] at hself ⊢
      exact ⟨hself.1, List.forall_mem_cons.mpr
        ⟨(msgs !s).accepted_sliceFrame_zero (hlong !s), hself.2⟩⟩
    have hcount := le_receivedCount haccepted hfit rest
    rw [map_snd_slipped, labelled_slipped _ _ _ (msgs !s).fragment_sliceFrame_zero hlast] at huniform
    refine not_uniform_replay (show (!s) ≠ s by simp) ?_ ?_ ?_ ?_ huniform
    · rw [List.mem_map]
      obtain ⟨b, hb⟩ := List.exists_mem_of_ne_nil _ (List.ne_nil_of_length_pos
        (hsize ▸ (by decide : 0 < SLICE_SIZE)))
      exact ⟨b, hb, rfl⟩
    · intro f hf
      obtain ⟨_, hx, rfl⟩ := List.mem_map.mp hf
      obtain ⟨_, hfrag, rfl⟩ := List.mem_map.mp hx
      obtain ⟨g, hg, rfl⟩ := List.mem_map.mp hfrag
      obtain ⟨c, hc⟩ := hmiddle g hg
      exact ⟨_, by rw [labelled, hc]; rfl⟩
    · obtain ⟨b, hb⟩ := List.exists_mem_of_ne_nil _ hc
      exact List.mem_map_of_mem hb
    · refine Nat.lt_of_lt_of_le ?_ hcount
      simp [tag]

/-- Each frame in a call of its own. -/
theorem interleaves_singletons {msgs : Bool → Message} {order : List (Bool × Frame)}
    (h : ∀ s, sentBy s order = (msgs s).frames) : Interleaves msgs (order.map fun x => [x]) where
  frameCalls := by
    rw [List.map_map, show List.map Prod.snd ∘ (fun x : Bool × Frame => [x]) =
      (fun f => [f]) ∘ Prod.snd from rfl, ← List.map_map]
    exact frameCalls_singletons _
  inOrder := by
    intro s
    rw [← List.flatMap_def, List.flatMap_singleton', h]

theorem exists_mixed (mem : Nat → UInt8) {msgs : Bool → Message}
    (hlong : ∀ s, SLICE_SIZE ≤ (msgs s).payload.length) {s : Bool} (h : (msgs s).CanComplete) :
    ∃ calls, Interleaves msgs calls ∧ ¬Unmixed mem msgs calls := by
  obtain ⟨order, horder, hmixed⟩ := not_uniform_of_canComplete hlong h
  have hinter := interleaves_singletons horder
  refine ⟨_, hinter, fun hunmixed => hmixed ?_⟩
  have huniform := (oneSender_iff mem hinter.frameCalls).mp hunmixed.oneSender
  rwa [← List.flatMap_def, List.flatMap_singleton'] at huniform

/-- Two messages never mix exactly if one of them is not sliced or neither can be delivered. -/
theorem concurrentSends_iff (mem : Nat → UInt8) (msgs : Bool → Message) :
    (∀ calls, Interleaves msgs calls → Unmixed mem msgs calls) ↔ Separable msgs := by
  constructor
  · intro hunmixed
    by_contra hsep
    rw [Separable, not_or] at hsep
    obtain ⟨hlong, hcan⟩ := hsep
    obtain ⟨s, hs⟩ := not_forall.mp hcan
    obtain ⟨calls, hinter, hmixed⟩ := exists_mixed mem
      (fun s => Nat.le_of_not_lt fun hshort => hlong ⟨s, hshort⟩) (not_not.mp hs)
    exact hmixed (hunmixed calls hinter)
  · intro hsep calls hinter
    by_cases hshort : ∃ s, (msgs s).payload.length < SLICE_SIZE
    · obtain ⟨s, hs⟩ := hshort
      exact unmixed_of_short mem hinter hs
    · exact unmixed_of_never mem (fun s => Nat.le_of_not_lt fun hs => hshort ⟨s, hs⟩)
        (hsep.resolve_left hshort) hinter

/-- Two texts of two slices each: the last slice of one behind the first of the other. -/
theorem not_unmixed_twoTexts :
    ¬∀ calls, Interleaves (fun _ => tailText 126) calls →
      Unmixed (fun _ => 0) (fun _ => tailText 126) calls := by
  have hlength := length_tailText 126
  intro h
  obtain ⟨calls, hinter, hmixed⟩ := exists_mixed (fun _ => 0) (s := false)
    (fun _ => by rw [hlength]; decide)
    ⟨by rw [Message.lastlen, hlength]; decide, by rw [hlength]; decide⟩
  exact hmixed (h calls hinter)

end WebsocketCpp
