import WebsocketCpp.Websocket.Proofs.DecodeRefines

/-!
# Assertions in the hands of the peer

`decodeFrame` asserts that a frame with FIN == 0 has the length code 126
(`websocket/WSProtocol.cpp:387`), `computeUnMask` that there is something to unmask
(`WSProtocol.cpp:56`). Both speak of what the peer sends. A call on complete frames passes the
assertions exactly if the frames do, as far as the decoder gets (`noAssertionFails_iff`).
-/

namespace WebsocketCpp

/-- A call on complete frames does not abort the process. -/
def NoAssertionFails (p : WSProtocol) (fs : List Frame) : Prop :=
  (decodeFrame p (wires fs)).result ≠ .error .assertion

/-- What holds of every frame up to the first that finds no room: of the first frame, and of the others
if it finds room. -/
theorem forall_reached_cons {P : Frame → Prop} {acc : List UInt8} {g : Frame} {fs : List Frame} :
    (∀ before f, before ++ [f] <+: g :: fs →
        Fragment.AllFit MAX_FRAMESIZE acc (before.map Frame.fragment) → P f) ↔
      P g ∧ (g.fragment.Fits MAX_FRAMESIZE acc → ∀ before f, before ++ [f] <+: fs →
        Fragment.AllFit MAX_FRAMESIZE (g.fragment.keep acc) (before.map Frame.fragment) → P f) := by
  constructor
  · intro h
    refine ⟨h [] g (by simp) trivial, ?_⟩
    intro hfit before f hpre hall
    exact h (g :: before) f (List.cons_prefix_cons.mpr ⟨rfl, hpre⟩) ⟨hfit, hall⟩
  · rintro ⟨hg, hrest⟩ before f hpre hall
    cases before with
    | nil =>
        rcases List.cons_prefix_cons.mp hpre with ⟨rfl, -⟩
        exact hg
    | cons b before =>
        rcases List.cons_prefix_cons.mp hpre with ⟨rfl, hpre'⟩
        exact hrest hall.1 before f hpre' hall.2

/-- The receiver fails an assertion at the first frame that is not accepted, if it gets there. -/
theorem receiveAll_assertion_iff (acc : List UInt8) (fs : List Frame) :
    (receiveAll acc fs).result ≠ .error .assertion ↔
      ∀ before f, before ++ [f] <+: fs →
        Fragment.AllFit MAX_FRAMESIZE acc (before.map Frame.fragment) → f.Accepted := by
  induction fs generalizing acc with
  | nil =>
      refine iff_of_true ?_ ?_
      · intro h
        cases h
      · intro before f hpre
        exact absurd (List.prefix_nil.mp hpre) (by simp)
  | cons g fs ih =>
      rw [receiveAll_cons, forall_reached_cons]
      by_cases ha : g.Accepted
      · rw [and_iff_right ha]
        by_cases hfit : g.fragment.Fits MAX_FRAMESIZE acc
        · rw [receive_ok ha hfit, Traced.mk_bind]
          exact (ih (g.fragment.keep acc)).trans ⟨fun h _ => h, fun h => h hfit⟩
        · rw [receive_overflow ha hfit]
          refine iff_of_true ?_ fun h => absurd h hfit
          intro h
          cases h
      · rw [receive_rejected ha]
        exact iff_of_false (fun h => h rfl) fun h => ha h.1

/-- Complete frames pass the assertions exactly if every frame, up to the first that finds no room in
the buffer, has the length code 126 or FIN == 1, and a payload or no mask bit. -/
theorem noAssertionFails_iff (p : WSProtocol) (fs : List Frame)
    (hlen : (wires fs).length < MAX_FRAMESIZE) :
    NoAssertionFails p fs ↔
      ∀ before f, before ++ [f] <+: fs →
        Fragment.AllFit MAX_FRAMESIZE p.reassembled (before.map Frame.fragment) → f.Accepted := by
  by_cases hne : fs = []
  · subst hne
    refine iff_of_true ?_ ?_
    · intro h
      cases h
    · intro before f hpre
      exact absurd (List.prefix_nil.mp hpre) (by simp)
  · rw [← receiveAll_assertion_iff, NoAssertionFails, ne_eq, ne_eq,
      (decodeFrame_wires p hne hlen).error_iff]

/-- A new decoder has room for everything that one call can bring. -/
theorem noAssertionFails_new_iff (mem : Nat → UInt8) (fs : List Frame)
    (hlen : (wires fs).length < MAX_FRAMESIZE) :
    NoAssertionFails (.new mem) fs ↔ ∀ f ∈ fs, f.Accepted := by
  have hroom : Fragment.AllFit MAX_FRAMESIZE (WSProtocol.new mem).reassembled
      (fs.map Frame.fragment) := by
    apply Fragment.allFit_of_length_le
    have hle := length_chunks_le fs
    rw [reassembled_new, List.length_nil]
    omega
  rw [noAssertionFails_iff _ fs hlen]
  constructor
  · intro h f hf
    rcases List.append_of_mem hf with ⟨before, after, rfl⟩
    rw [List.map_append, Fragment.allFit_append] at hroom
    exact h before f ⟨after, by simp⟩ hroom.1
  · rintro h before f ⟨after, rfl⟩ -
    exact h f (by simp)

/-- A short text, masked. -/
theorem noAssertionFails_text :
    NoAssertionFails (.new fun _ => 0) [.short 1 .eTextFrame 1 [0x61] (by decide)] := by
  apply (noAssertionFails_iff _ _ (by decide)).mpr
  rintro before f ⟨after, hpre⟩ -
  have hmem : f ∈ before ++ [f] ++ after := by simp
  rw [hpre] at hmem
  rw [List.mem_singleton.mp hmem]
  decide

/-- The empty last slice that `encodeFrame` emits for 1000 bytes, and a first fragment of one byte:
each aborts a new decoder. -/
theorem not_noAssertionFails :
    ¬NoAssertionFails (.new fun _ => 0) [.short 1 .eContinueFrame 1 [] (by decide)] ∧
      ¬NoAssertionFails (.new fun _ => 0) [.short 0 .eTextFrame 0 [0x61] (by decide)] := by
  refine ⟨?_, ?_⟩
  · intro h
    exact h rfl
  · intro h
    exact h rfl

end WebsocketCpp
