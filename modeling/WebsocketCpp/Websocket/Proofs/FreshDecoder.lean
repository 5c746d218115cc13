import WebsocketCpp.Websocket.Proofs.ReceivePath

/-!
# A decoder for each call

`WebSocketServer::onConnMessage` (`websocket/WebSocketServer.cpp:60-69`) decodes every read with a
new `WSProtocol`. On masked frames in an order that a sender may use, this makes no difference
exactly when no read begins with continuation frames that complete a message
(`keptCalls_eq_freshCalls_iff`).
-/

namespace WebsocketCpp

open Traced Fragment

/-- The call begins with continuation frames that complete a message. -/
def OrphanFinal : List Frame → Prop
  | [] => False
  | f :: fs => f.Accepted ∧
    match f.fragment with
    | .last _ => True
    | .middle _ => OrphanFinal fs
    | .whole _ | .first _ => False

/-- No read that the decoder gets to begins with continuation frames that complete a message. The
decoder stops at a read that is too long and at a frame that fails an assertion. -/
def NoOrphanFinal : List (List Frame) → Prop
  | [] => True
  | c :: cs => (wires c).length < MAX_FRAMESIZE →
    ¬OrphanFinal c ∧ ((∀ f ∈ c, f.Accepted) → NoOrphanFinal cs)

section

variable {c : List Frame} (cs : List (List Frame))

theorem noOrphanFinal_of_le (hlen : ¬(wires c).length < MAX_FRAMESIZE) : NoOrphanFinal (c :: cs) :=
  fun h => absurd h hlen

theorem noOrphanFinal_of_rejected (horphan : ¬OrphanFinal c) (hrej : ¬∀ f ∈ c, f.Accepted) :
    NoOrphanFinal (c :: cs) :=
  fun _ => ⟨horphan, fun ha => absurd ha hrej⟩

theorem not_noOrphanFinal (hlen : (wires c).length < MAX_FRAMESIZE) (horphan : OrphanFinal c) :
    ¬NoOrphanFinal (c :: cs) :=
  fun h => (h hlen).1 horphan

theorem noOrphanFinal_cons_iff (hlen : (wires c).length < MAX_FRAMESIZE)
    (horphan : ¬OrphanFinal c) (ha : ∀ f ∈ c, f.Accepted) :
    NoOrphanFinal (c :: cs) ↔ NoOrphanFinal cs :=
  ⟨fun h => (h hlen).2 ha, fun h _ => ⟨horphan, fun _ => h⟩⟩

end

/-! ## One call -/

theorem payload_ne_nil {f : Frame} (hmask : f.head.mask = 1) (ha : f.Accepted) :
    f.payload ≠ [] := by
  intro hnil
  have hlen := f.length_payload
  rw [hnil] at hlen
  exact ha.2 hmask (List.length_eq_zero_iff.mp hlen.symm)

/-- The same frame, received into the same buffer. -/
theorem receive_same (f : Frame) (acc : List UInt8) :
    Sim (fun a b => a = b ∧ (f.fragment.keep acc = a)) (receive acc f) (receive acc f) := by
  rcases receive_cases acc f with ⟨-, -, hok⟩ | ⟨-, e, -, hfail⟩
  · rw [hok]
    exact Sim.ok ⟨rfl, rfl⟩
  · rw [hfail]
    exact Sim.fail e

/-- What the buffer holds matters to a frame only inside of a message. -/
theorem receive_restart {f : Frame} {ph ph' : Phase} {a b : List UInt8}
    (hnext : ph.next f.fragment = some ph') (hmask : f.head.mask = 1)
    (hab : ph ≠ .idle → a = b ∧ a ≠ []) :
    Sim (fun a' b' => ph' ≠ .idle → a' = b' ∧ a' ≠ []) (receive a f) (receive b f) := by
  by_cases ha : f.Accepted
  case neg =>
    rw [receive_rejected ha, receive_rejected ha]
    exact Sim.fail _
  have hchunk : f.fragment.chunk ≠ [] := by
    rw [f.chunk_fragment]
    exact payload_ne_nil hmask ha
  cases hfrag : f.fragment with
  | whole c =>
      have hidle : ph' = .idle := by
        rw [hfrag] at hnext
        cases ph <;> cases hnext <;> rfl
      rw [receive_ok ha (by rw [hfrag]; trivial), receive_ok ha (by rw [hfrag]; trivial), hfrag]
      exact Sim.ok fun h => absurd hidle h
  | first c =>
      by_cases hfit : c.length ≤ MAX_FRAMESIZE
      · rw [receive_ok ha (by rw [hfrag]; exact hfit), receive_ok ha (by rw [hfrag]; exact hfit),
          hfrag]
        rw [hfrag] at hchunk
        exact Sim.ok fun _ => ⟨rfl, hchunk⟩
      · rw [receive_overflow ha (by rw [hfrag]; exact hfit),
          receive_overflow ha (by rw [hfrag]; exact hfit)]
        exact Sim.fail _
  | middle c | last c =>
      -- inside of a message the buffers are the same
      have hne : ph ≠ .idle := by
        rintro rfl
        rw [hfrag] at hnext
        cases hnext
      obtain ⟨rfl, hacc⟩ := hab hne
      apply Sim.mono (receive_same f a)
      rintro a' b' ⟨rfl, hkeep⟩ _
      refine ⟨rfl, ?_⟩
      rw [← hkeep, hfrag]
      exact List.append_ne_nil_of_left_ne_nil hacc _

/-- The same for a call. -/
theorem receiveAll_restart {fs : List Frame} {ph ph' : Phase} {a b : List UInt8}
    (hrun : ph.run (fs.map Frame.fragment) = some ph') (hmask : ∀ f ∈ fs, f.head.mask = 1)
    (hab : ph ≠ .idle → a = b ∧ a ≠ []) :
    Sim (fun a' b' => ph' ≠ .idle → a' = b' ∧ a' ≠ []) (receiveAll a fs) (receiveAll b fs) := by
  induction fs generalizing ph a b with
  | nil =>
      cases hrun
      exact Sim.pure hab
  | cons f fs ih =>
      rw [List.map_cons, Phase.run_cons] at hrun
      obtain ⟨ph1, hph1, hrest⟩ := Option.bind_eq_some_iff.mp hrun
      rw [receiveAll_cons, receiveAll_cons]
      apply Sim.bind (receive_restart hph1 (hmask f (List.mem_cons_self ..)) hab)
      intro a' b' hab'
      exact ih hrest (fun g hg => hmask g (List.mem_cons_of_mem _ hg)) hab'

/-- A call that begins inside of a message, without a final continuation that completes it:
nothing is delivered, and if the call succeeds the message is still open. -/
theorem receiveAll_inside {fs : List Frame} {ph' : Phase}
    (hrun : Phase.inside.run (fs.map Frame.fragment) = some ph') (hno : ¬OrphanFinal fs)
    (acc : List UInt8) :
    (receiveAll acc fs).out = [] ∧
      ∀ acc', (receiveAll acc fs).result = .ok acc' → ph' = .inside ∧ acc <+: acc' := by
  induction fs generalizing acc with
  | nil =>
      cases hrun
      refine ⟨rfl, ?_⟩
      intro acc' h
      cases h
      exact ⟨rfl, List.prefix_refl _⟩
  | cons f fs ih =>
      rw [List.map_cons, Phase.run_cons] at hrun
      obtain ⟨ph1, hph1, hrest⟩ := Option.bind_eq_some_iff.mp hrun
      rw [receiveAll_cons]
      rcases receive_cases acc f with ⟨ha, -, hok⟩ | ⟨-, e, -, hfail⟩
      case inr =>
        rw [hfail, fail_bind]
        exact ⟨rfl, fun _ h => nomatch h⟩
      rw [hok, mk_bind]
      rw [OrphanFinal] at hno
      cases hfrag : f.fragment with
      | whole c | first c =>
          rw [hfrag] at hph1
          cases hph1
      | last c =>
          rw [hfrag] at hno
          exact absurd ⟨ha, trivial⟩ hno
      | middle c =>
          rw [hfrag] at hph1 hno
          cases hph1
          obtain ⟨hout, hok⟩ := ih hrest (fun h => hno ⟨ha, h⟩) (acc ++ c)
          refine ⟨hout, ?_⟩
          intro acc' h
          obtain ⟨hph', hprefix⟩ := hok acc' h
          exact ⟨hph', (List.prefix_append acc c).trans hprefix⟩

theorem Frame.length_chunk_le (f : Frame) : f.fragment.chunk.length ≤ f.wire.length := by
  rw [f.chunk_fragment, f.length_payload, f.length_wire]
  omega

/-- Only a call that is long for what the buffer holds overruns it. -/
theorem receiveAll_overflow_cons {acc : List UInt8} {f : Frame} (ha : f.Accepted)
    (hfit : ¬f.fragment.Fits MAX_FRAMESIZE acc) (fs : List Frame) :
    MAX_FRAMESIZE < acc.length + (wires (f :: fs)).length ∧
      receiveAll acc (f :: fs) = Traced.fail .writePastBuffer := by
  refine ⟨?_, by rw [receiveAll_cons, receive_overflow ha hfit, fail_bind]⟩
  by_contra hle
  have hlength := f.length_chunk_le
  rw [wires_cons, List.length_append] at hle
  exact hfit (fits_of_length_le (by omega))

/-- A call that begins with continuation frames completing a message delivers what the buffer
holds and their payloads, unless it overruns the buffer first. -/
theorem receiveAll_orphan {fs : List Frame} (horphan : OrphanFinal fs) :
    ∃ tail, ∀ acc : List UInt8,
      (∃ calls, (receiveAll acc fs).out = FrameCall.of (acc ++ tail) :: calls) ∨
      (MAX_FRAMESIZE < acc.length + (wires fs).length ∧
        receiveAll acc fs = Traced.fail .writePastBuffer) := by
  induction fs with
  | nil => exact absurd horphan id
  | cons f fs ih =>
      rw [OrphanFinal] at horphan
      obtain ⟨ha, hmatch⟩ := horphan
      cases hfrag : f.fragment with
      | whole c | first c =>
          rw [hfrag] at hmatch
          exact absurd hmatch id
      | last c =>
          refine ⟨c, ?_⟩
          intro acc
          by_cases hfit : f.fragment.Fits MAX_FRAMESIZE acc
          · left
            rw [receiveAll_cons, receive_ok ha hfit, hfrag, mk_bind]
            exact ⟨_, rfl⟩
          · exact .inr (receiveAll_overflow_cons ha hfit fs)
      | middle c =>
          rw [hfrag] at hmatch
          obtain ⟨tail, htail⟩ := ih hmatch
          refine ⟨c ++ tail, ?_⟩
          intro acc
          by_cases hfit : f.fragment.Fits MAX_FRAMESIZE acc
          · have hcons : receiveAll acc (f :: fs) = receiveAll (acc ++ c) fs := by
              rw [receiveAll_cons, receive_ok ha hfit, hfrag, mk_bind]
              rfl
            rw [hcons, ← List.append_assoc]
            apply (htail (acc ++ c)).imp id
            rintro ⟨hlt, hfail⟩
            refine ⟨?_, hfail⟩
            have hlength := f.length_chunk_le
            rw [hfrag, chunk] at hlength
            rw [List.length_append] at hlt
            rw [wires_cons, List.length_append]
            omega
          · exact .inr (receiveAll_overflow_cons ha hfit fs)

/-! ## Sequences of calls -/

/-- A call on a new decoder fails only at a frame that is not accepted. -/
theorem exists_rejected_of_error {c : List Frame} {e : Fault}
    (hlen : (wires c).length < MAX_FRAMESIZE) (h : (receiveAll [] c).result = .error e) :
    ¬∀ f ∈ c, f.Accepted := by
  intro ha
  have hfit : AllFit MAX_FRAMESIZE [] (c.map Frame.fragment) := by
    apply allFit_of_length_le
    have hle := length_chunks_le c
    rw [List.length_nil]
    omega
  rw [receiveAll_ok ha hfit] at h
  cases h

/-- The first message a new decoder delivers of a call that completes one. -/
theorem fresh_orphan {c : List Frame} (hlen : (wires c).length < MAX_FRAMESIZE)
    (horphan : OrphanFinal c) :
    ∃ tail, (∃ calls, (receiveAll [] c).out = FrameCall.of tail :: calls) ∧
      ∀ acc, receiveAll acc c = Traced.fail .writePastBuffer ∨
        ∃ calls, (receiveAll acc c).out = FrameCall.of (acc ++ tail) :: calls := by
  obtain ⟨tail, htail⟩ := receiveAll_orphan horphan
  refine ⟨tail, ?_, ?_⟩
  · apply (htail []).resolve_right
    rintro ⟨hlt, -⟩
    rw [List.length_nil] at hlt
    omega
  · intro acc
    exact (htail acc).symm.imp And.right id

/-- A call that begins with a message of its own does not complete another one. -/
theorem not_orphanFinal_of_idle {c : List Frame} {ph' : Phase}
    (h : Phase.idle.run (c.map Frame.fragment) = some ph') : ¬OrphanFinal c := by
  cases c with
  | nil => exact id
  | cons f fs =>
      intro horphan
      rw [OrphanFinal] at horphan
      rw [List.map_cons, Phase.run_cons] at h
      cases hfrag : f.fragment <;> rw [hfrag] at h horphan
      · exact horphan.2
      · exact horphan.2
      · cases h
      · cases h

/-- Calls on new decoders that begin inside of a message deliver nothing exactly if none
completes it. -/
theorem freshCalls_inside {cuts : List (List Frame)} {ph' : Phase}
    (hrun : Phase.inside.run (cuts.flatten.map Frame.fragment) = some ph') :
    (freshCalls cuts).out = [] ↔ NoOrphanFinal cuts := by
  induction cuts with
  | nil => exact iff_of_true rfl trivial
  | cons c cs ih =>
      rw [List.flatten_cons, List.map_append, Phase.run_append] at hrun
      obtain ⟨ph1, hph1, hrest⟩ := Option.bind_eq_some_iff.mp hrun
      rw [freshCalls_cons]
      by_cases hlen : (wires c).length < MAX_FRAMESIZE
      case neg =>
        rw [receiveCall_of_le hlen, fail_bind]
        exact iff_of_true rfl (noOrphanFinal_of_le cs hlen)
      rw [receiveCall_of_lt hlen]
      by_cases horphan : OrphanFinal c
      · obtain ⟨tail, ⟨calls, hcalls⟩, -⟩ := fresh_orphan hlen horphan
        have hprefix := out_prefix_bind (receiveAll [] c) fun _ => freshCalls cs
        refine iff_of_false ?_ (not_noOrphanFinal cs hlen horphan)
        intro hnil
        rw [hnil, hcalls] at hprefix
        cases List.prefix_nil.mp hprefix
      obtain ⟨hout, hok⟩ := receiveAll_inside hph1 horphan []
      cases hres : (receiveAll [] c).result with
      | error e =>
          rw [bind_of_error hres, hout]
          exact iff_of_true rfl
            (noOrphanFinal_of_rejected cs horphan (exists_rejected_of_error hlen hres))
      | ok acc =>
          rw [bind_of_ok hres, hout, List.nil_append,
            noOrphanFinal_cons_iff cs hlen horphan (accepted_of_receiveAll hres)]
          obtain ⟨rfl, -⟩ := hok acc hres
          exact ih hrest

/-- A call that completes a message it did not begin is delivered differently. -/
theorem kept_ne_fresh_of_orphan {c : List Frame} {acc : List UInt8}
    (hlen : (wires c).length < MAX_FRAMESIZE) (horphan : OrphanFinal c) (hacc : acc ≠ [])
    (cs : List (List Frame)) :
    (receiveAll acc c >>= fun acc' => keptCalls acc' cs).out ≠
      (receiveAll [] c >>= fun _ => freshCalls cs).out := by
  obtain ⟨tail, ⟨calls, hcalls⟩, hkept⟩ := fresh_orphan hlen horphan
  have hfresh := out_prefix_bind (receiveAll [] c) fun _ => freshCalls cs
  intro heq
  rw [hcalls, ← heq] at hfresh
  rcases hkept acc with hfail | ⟨calls', hcalls'⟩
  · rw [hfail, fail_bind] at hfresh
    cases List.prefix_nil.mp hfresh
  · have hk := out_prefix_bind (receiveAll acc c) fun acc' => keptCalls acc' cs
    rw [hcalls'] at hk
    obtain ⟨rest, hrest⟩ := hfresh
    obtain ⟨rest', hrest'⟩ := hk
    have hhead := (List.cons.inj (hrest.trans hrest'.symm)).1
    have htail : tail = acc ++ tail := FrameCall.of_injective hhead
    have hlength := congrArg List.length htail
    rw [List.length_append] at hlength
    exact hacc (List.length_eq_zero_iff.mp (by omega))

section

variable {c : List Frame} {cs : List (List Frame)} {ph ph' : Phase} {acc : List UInt8}

/-- A call that begins inside of a message and does not complete it. Both decoders deliver nothing;
if the kept one is overrun, the others still deliver nothing for the rest of the message. -/
theorem kept_eq_fresh_of_inside (hlen : (wires c).length < MAX_FRAMESIZE)
    (horphan : ¬OrphanFinal c) (hinside : Phase.inside.run (c.map Frame.fragment) = some ph)
    (hrest : ph.run (cs.flatten.map Frame.fragment) = some ph') (hacc : acc ≠ [])
    (ih : ∀ a ≠ [], (keptCalls a cs).out = (freshCalls cs).out ↔ NoOrphanFinal cs) :
    (receiveAll acc c >>= fun a => keptCalls a cs).out =
      (receiveAll [] c >>= fun _ => freshCalls cs).out ↔ NoOrphanFinal (c :: cs) := by
  obtain ⟨houtk, hokk⟩ := receiveAll_inside hinside horphan acc
  obtain ⟨houtf, hokf⟩ := receiveAll_inside hinside horphan []
  cases hresf : (receiveAll [] c).result with
  | error e =>
      have hrej := exists_rejected_of_error hlen hresf
      cases hresk : (receiveAll acc c).result with
      | ok a => exact absurd (accepted_of_receiveAll hresk) hrej
      | error e' =>
          rw [bind_of_error hresf, bind_of_error hresk, houtk, houtf]
          exact iff_of_true rfl (noOrphanFinal_of_rejected cs horphan hrej)
  | ok b =>
      obtain ⟨rfl, -⟩ := hokf b hresf
      rw [noOrphanFinal_cons_iff cs hlen horphan (accepted_of_receiveAll hresf), bind_of_ok hresf,
        houtf, List.nil_append]
      cases hresk : (receiveAll acc c).result with
      | ok a =>
          have ha : a ≠ [] := by
            rintro rfl
            exact hacc (List.prefix_nil.mp (hokk [] hresk).2)
          rw [bind_of_ok hresk, houtk, List.nil_append]
          exact ih a ha
      | error e =>
          rw [bind_of_error hresk, houtk, eq_comm]
          exact freshCalls_inside hrest

/-- A call that begins with a message of its own. -/
theorem kept_eq_fresh_of_idle (hlen : (wires c).length < MAX_FRAMESIZE)
    (hidle : Phase.idle.run (c.map Frame.fragment) = some ph) (hmask : ∀ f ∈ c, f.head.mask = 1)
    (ih : ∀ a, (ph ≠ .idle → a ≠ []) →
      ((keptCalls a cs).out = (freshCalls cs).out ↔ NoOrphanFinal cs)) :
    (receiveAll acc c >>= fun a => keptCalls a cs).out =
      (receiveAll [] c >>= fun _ => freshCalls cs).out ↔ NoOrphanFinal (c :: cs) := by
  have horphan := not_orphanFinal_of_idle hidle
  have hsim := receiveAll_restart (a := acc) (b := []) hidle hmask fun h => absurd rfl h
  cases hres : (receiveAll [] c).result with
  | error e =>
      rw [bind_of_error hres, bind_of_error ((hsim.error_iff e).mpr hres), hsim.out_eq]
      exact iff_of_true rfl
        (noOrphanFinal_of_rejected cs horphan (exists_rejected_of_error hlen hres))
  | ok b =>
      obtain ⟨a, ha, hab⟩ := hsim.ok_right hres
      rw [bind_of_ok hres, bind_of_ok ha, hsim.out_eq, List.append_cancel_left_eq,
        noOrphanFinal_cons_iff cs hlen horphan (accepted_of_receiveAll hres)]
      exact ih a fun h => (hab h).2

end

/-- The kept decoder and the new ones deliver the same exactly if no call begins with continuation
frames that complete a message. The induction is over the calls; the kept buffer is not empty
inside of a message. -/
theorem keptCalls_eq_freshCalls_iff {cuts : List (List Frame)} {ph ph' : Phase} {acc : List UInt8}
    (hrun : ph.run (cuts.flatten.map Frame.fragment) = some ph')
    (hmask : ∀ f ∈ cuts.flatten, f.head.mask = 1) (hne : ∀ c ∈ cuts, c ≠ [])
    (hacc : ph ≠ .idle → acc ≠ []) :
    (keptCalls acc cuts).out = (freshCalls cuts).out ↔ NoOrphanFinal cuts := by
  induction cuts generalizing ph acc with
  | nil => exact iff_of_true rfl trivial
  | cons c cs ih =>
      rw [List.flatten_cons, List.map_append, Phase.run_append] at hrun
      rw [List.flatten_cons] at hmask
      obtain ⟨ph1, hph1, hrest⟩ := Option.bind_eq_some_iff.mp hrun
      have ih' : ∀ a, (ph1 ≠ .idle → a ≠ []) →
          ((keptCalls a cs).out = (freshCalls cs).out ↔ NoOrphanFinal cs) := fun a =>
        ih hrest (fun f hf => hmask f (List.mem_append_right _ hf))
          fun d hd => hne d (List.mem_cons_of_mem _ hd)
      have hcne : c.map Frame.fragment ≠ [] := by
        rw [ne_eq, List.map_eq_nil_iff]
        exact hne c (List.mem_cons_self ..)
      rw [keptCalls_cons, freshCalls_cons]
      by_cases hlen : (wires c).length < MAX_FRAMESIZE
      case neg =>
        rw [receiveCall_of_le hlen, receiveCall_of_le hlen, fail_bind]
        exact iff_of_true rfl (noOrphanFinal_of_le cs hlen)
      rw [receiveCall_of_lt hlen, receiveCall_of_lt hlen]
      rcases Phase.run_cases hcne hph1 with ⟨hph, hinside⟩ | hidle
      · by_cases horphan : OrphanFinal c
        · exact iff_of_false (kept_ne_fresh_of_orphan hlen horphan (hacc hph) cs)
            (not_noOrphanFinal cs hlen horphan)
        · exact kept_eq_fresh_of_inside hlen horphan hinside hrest (hacc hph)
            fun a ha => ih' a fun _ => ha
      · exact kept_eq_fresh_of_idle hlen hidle (fun f hf => hmask f (List.mem_append_left _ hf)) ih'

end WebsocketCpp
