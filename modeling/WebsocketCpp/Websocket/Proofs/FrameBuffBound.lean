import WebsocketCpp.Websocket.Proofs.DecodeRefines

/-!
# The bound of the reassembly buffer

`framePos_` grows with every fragment and every final continuation and goes back to 0 only
at a text or blob frame with `FIN == 0`. Nothing compares it with `MAX_FRAMESIZE`: the
assertion on `len` bounds one call, not what several calls accumulate. The buffer is written
within its bounds exactly as long as the peer lets no more than `MAX_FRAMESIZE` payload bytes
accumulate (`boundedRun_iff`).
-/

namespace WebsocketCpp

/-- `Passes p data q`: the loop of `decodeFrame`, started on `data` in state `p`, is in state
`q` after one of its iterations. -/
inductive Passes : WSProtocol → List UInt8 → WSProtocol → Prop
  | here {p : WSProtocol} {data : List UInt8} {q : WSProtocol} {next : Option (List UInt8)} :
      (decodeIter p data).result = .ok (q, next) → Passes p data q
  | later {p : WSProtocol} {data : List UInt8} {q : WSProtocol} {rest : List UInt8}
      {r : WSProtocol} :
      (decodeIter p data).result = .ok (q, some rest) → Passes q rest r → Passes p data r

/-- Along a run of calls `framePos_` stays within the buffer after every frame, and no `memcpy`
leaves it. -/
structure BoundedRun (p : WSProtocol) (calls : List (List UInt8)) : Prop where
  framePos_le : ∀ before data after q r, calls = before ++ data :: after →
    (decodeCalls p before).result = .ok q → Passes q data r → r.framePos ≤ MAX_FRAMESIZE
  inside : (decodeCalls p calls).result ≠ .error .writePastBuffer

/-- What the payloads of the fragments and final continuations since the last text or blob
frame with `FIN == 0` add up to. -/
def accumulated (fs : List Frame) : Nat :=
  fs.foldl (fun n f =>
    match f.fragment with
    | .whole _ => n
    | .first c => c.length
    | .middle c | .last c => n + c.length) 0

theorem accumulated_eq (fs : List Frame) :
    accumulated fs = (Fragment.pending [] (fs.map Frame.fragment)).length := by
  unfold accumulated
  suffices h : ∀ (fs : List Frame) (acc : List UInt8),
      fs.foldl (fun n f =>
        match f.fragment with
        | .whole _ => n
        | .first c => c.length
        | .middle c | .last c => n + c.length) acc.length =
      (Fragment.pending acc (fs.map Frame.fragment)).length from h fs []
  intro fs
  induction fs with
  | nil => intro acc; rfl
  | cons f fs ih =>
      intro acc
      rw [List.foldl_cons, List.map_cons, Fragment.pending_cons, ← ih]
      cases f.fragment <;> simp [Fragment.keep]

/-! ## `framePos_` between iterations -/

theorem framePos_copyPayload {p q : WSProtocol} {payl : List UInt8} {payll : Nat}
    (h : (p.copyPayload payl payll).result = .ok q) : q.framePos ≤ MAX_FRAMESIZE := by
  by_cases hread : payll ≤ payl.length
  case neg =>
    rw [WSProtocol.copyPayload, Traced.require_false hread] at h
    cases h
  by_cases hfit : p.framePos + payll ≤ MAX_FRAMESIZE
  case neg =>
    rw [WSProtocol.copyPayload, Traced.require_true hread, Traced.require_false hfit] at h
    cases h
  rw [WSProtocol.copyPayload, Traced.require_true hread, Traced.require_true hfit] at h
  cases h
  exact hfit

theorem framePos_deliver {p q : WSProtocol} {header : WSHead} {payl : List UInt8} {payll : Nat}
    (hp : p.framePos ≤ MAX_FRAMESIZE) (h : (deliver p header payl payll).result = .ok q) :
    q.framePos ≤ MAX_FRAMESIZE := by
  unfold deliver at h
  split at h
  · split at h
    · rcases Traced.result_bind h with ⟨r, hr, h⟩
      cases h
      exact framePos_copyPayload hr
    · cases h
      exact hp
  · split at h
    · exact framePos_copyPayload h
    · exact framePos_copyPayload h

/-- Every iteration that returns leaves `framePos_` within the buffer if it was. -/
theorem framePos_decodeIter {p q : WSProtocol} {data : List UInt8} {next : Option (List UInt8)}
    (hp : p.framePos ≤ MAX_FRAMESIZE) (h : (decodeIter p data).result = .ok (q, next)) :
    q.framePos ≤ MAX_FRAMESIZE := by
  rw [decodeIter_eq] at h
  rcases Traced.result_bind h with ⟨⟨header, payl, payll, rest⟩, -, h⟩
  rcases Traced.result_bind h with ⟨payl, -, h⟩
  rcases Traced.result_bind h with ⟨r, hr, h⟩
  cases h
  exact framePos_deliver hp hr

theorem framePos_passes {p q : WSProtocol} {data : List UInt8} (hp : p.framePos ≤ MAX_FRAMESIZE)
    (h : Passes p data q) : q.framePos ≤ MAX_FRAMESIZE := by
  induction h with
  | here h => exact framePos_decodeIter hp h
  | later h _ ih => exact ih (framePos_decodeIter hp h)

theorem framePos_decodeLoop {n : Nat} {p q : WSProtocol} {data : List UInt8}
    (hp : p.framePos ≤ MAX_FRAMESIZE) (h : (decodeLoop n p data).result = .ok q) :
    q.framePos ≤ MAX_FRAMESIZE := by
  induction n generalizing p data with
  | zero => cases h
  | succ n ih =>
      obtain ⟨⟨r, next⟩, hr, h⟩ := Traced.result_bind h
      cases next with
      | none => cases h; exact framePos_decodeIter hp hr
      | some rest => exact ih (framePos_decodeIter hp hr) h

theorem framePos_decodeCalls {p q : WSProtocol} {calls : List (List UInt8)}
    (hp : p.framePos ≤ MAX_FRAMESIZE) (h : (decodeCalls p calls).result = .ok q) :
    q.framePos ≤ MAX_FRAMESIZE := by
  induction calls generalizing p with
  | nil => cases h; exact hp
  | cons c cs ih =>
      obtain ⟨r, hr, h⟩ := Traced.result_bind h
      obtain ⟨-, -, hr⟩ := Traced.result_bind hr
      exact ih (framePos_decodeLoop hp hr) h

/-! ## Overflow -/

theorem forall_prefix_cons {α : Type} {P : List α → Prop} {x : α} {xs : List α} :
    (∀ before, before <+: x :: xs → P before) ↔ P [] ∧ ∀ before, before <+: xs → P (x :: before) := by
  constructor
  · intro h
    refine ⟨h [] List.nil_prefix, ?_⟩
    intro before hb
    exact h _ (List.cons_prefix_cons.mpr ⟨rfl, hb⟩)
  · rintro ⟨hnil, hcons⟩ before hb
    rcases List.prefix_cons_iff.mp hb with rfl | ⟨rest, rfl, hrest⟩
    · exact hnil
    · exact hcons rest hrest

/-- The receiver overflows exactly when a run of accepted frames accumulates more than the
buffer holds. -/
theorem receiveAll_overflow_iff {acc : List UInt8} (hacc : acc.length ≤ MAX_FRAMESIZE)
    (fs : List Frame) :
    (receiveAll acc fs).result ≠ .error .writePastBuffer ↔
      ∀ before, before <+: fs → (∀ f ∈ before, f.Accepted) →
        (Fragment.pending acc (before.map Frame.fragment)).length ≤ MAX_FRAMESIZE := by
  induction fs generalizing acc with
  | nil =>
      refine iff_of_true (by simp) ?_
      intro before hb _
      rw [List.prefix_nil.mp hb]
      exact hacc
  | cons f fs ih =>
      have hnil : (∀ g ∈ ([] : List Frame), g.Accepted) →
          (Fragment.pending acc ([].map Frame.fragment)).length ≤ MAX_FRAMESIZE :=
        fun _ => hacc
      rw [receiveAll_cons, forall_prefix_cons, and_iff_right hnil]
      simp only [List.forall_mem_cons]
      by_cases ha : f.Accepted
      case neg =>
        rw [receive_rejected ha]
        exact iff_of_true (by simp) fun _ _ h => absurd h.1 ha
      by_cases hfit : f.fragment.Fits MAX_FRAMESIZE acc
      case neg =>
        rw [receive_overflow ha hfit]
        refine iff_of_false (fun h => h rfl) ?_
        intro h
        have hone := h [] List.nil_prefix ⟨ha, by simp⟩
        exact hfit ((Fragment.fits_iff hacc f.fragment).mpr hone)
      rw [receive_ok ha hfit, Traced.mk_bind]
      have hkeep := (Fragment.fits_iff hacc f.fragment).mp hfit
      simp only [and_iff_right ha]
      exact ih hkeep

/-- The bound holds along a run exactly when the writes stay inside, since the decoder's state
moves only by writes that do. -/
theorem boundedRun_of_inside (mem : Nat → UInt8) (calls : List (List UInt8))
    (h : (decodeCalls (.new mem) calls).result ≠ .error .writePastBuffer) :
    BoundedRun (.new mem) calls where
  framePos_le := by
    intro before data after q r _ hq hr
    have h0 : (WSProtocol.new mem).framePos ≤ MAX_FRAMESIZE := Nat.zero_le _
    exact framePos_passes (framePos_decodeCalls h0 hq) hr
  inside := h

theorem decodeCalls_inside_iff (mem : Nat → UInt8) {calls : List (List Frame)}
    (h : FrameCalls calls) :
    (decodeCalls (.new mem) (calls.map wires)).result ≠ .error .writePastBuffer ↔
      ∀ before, before <+: calls.flatten → (∀ f ∈ before, f.Accepted) →
        accumulated before ≤ MAX_FRAMESIZE := by
  have hsim := decodeCalls_wires (.new mem) h
  rw [reassembled_new] at hsim
  rw [ne_eq, hsim.error_iff, ← ne_eq, receiveAll_overflow_iff (Nat.zero_le _)]
  simp only [accumulated_eq]

/-- The reassembly buffer is written within its bounds exactly in the runs in which the frames
before the first rejected one never accumulate more than `MAX_FRAMESIZE` bytes. -/
theorem boundedRun_iff (mem : Nat → UInt8) (calls : List (List Frame)) (h : FrameCalls calls) :
    BoundedRun (.new mem) (calls.map wires) ↔
      ∀ before, before <+: calls.flatten → (∀ f ∈ before, f.Accepted) →
        accumulated before ≤ MAX_FRAMESIZE := by
  rw [← decodeCalls_inside_iff mem h]
  exact ⟨fun hb => hb.inside, boundedRun_of_inside mem _⟩

/-- A continuation fragment with the longest payload the layout allows. -/
def fullFragment : Frame :=
  .long 0 .eContinueFrame 0 (List.replicate 65535 0) (by rw [List.length_replicate]; decide)

theorem accumulated_fullFragment (n : Nat) :
    accumulated (List.replicate n fullFragment) = n * 65535 := by
  have hfrag : fullFragment.fragment = .middle (List.replicate 65535 0) := rfl
  induction n with
  | zero => rfl
  | succ n ih =>
      rw [List.replicate_succ', accumulated, List.foldl_append, ← accumulated, ih, List.foldl_cons,
        hfrag, List.foldl_nil]
      simp only [List.length_replicate]
      omega

theorem frameCalls_fullFragment (n : Nat) : FrameCalls (List.replicate n [fullFragment]) where
  nonempty := by
    intro c hc
    rw [List.eq_of_mem_replicate hc]
    simp
  length_lt := by
    intro c hc
    rw [List.eq_of_mem_replicate hc]
    exact length_wires_singleton_lt fullFragment

/-- Sixty-four calls with one such fragment each are within the bound. -/
theorem boundedRun_fullFragment :
    BoundedRun (.new fun _ => 0) ((List.replicate 64 [fullFragment]).map wires) := by
  apply (boundedRun_iff (fun _ => 0) _ (frameCalls_fullFragment 64)).mpr
  intro before hb _
  rw [List.flatten_replicate_singleton] at hb
  obtain ⟨k, hk, rfl⟩ : ∃ k, k ≤ 64 ∧ before = List.replicate k fullFragment := by
    refine ⟨before.length, by simpa using hb.length_le, List.eq_replicate_of_mem ?_⟩
    intro f hf
    exact List.eq_of_mem_replicate (hb.subset hf)
  rw [accumulated_fullFragment, MAX_FRAMESIZE]
  omega

/-- The sixty-fifth overruns the buffer. -/
theorem not_boundedRun_fullFragment :
    ¬BoundedRun (.new fun _ => 0) ((List.replicate 65 [fullFragment]).map wires) := by
  intro h
  have hin := (decodeCalls_inside_iff (fun _ => 0) (frameCalls_fullFragment 65)).mp h.inside
  rw [List.flatten_replicate_singleton] at hin
  have hall := hin _ (List.prefix_refl _) (by
    intro f hf
    rw [List.eq_of_mem_replicate hf]
    exact ⟨fun _ => rfl, fun h => absurd h (by decide)⟩)
  rw [accumulated_fullFragment, MAX_FRAMESIZE] at hall
  omega

end WebsocketCpp
