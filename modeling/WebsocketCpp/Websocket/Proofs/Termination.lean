import WebsocketCpp.Websocket.Proofs.DecodeFront

/-!
# Does the loop end?

The loop of `decodeFrame` (`websocket/WSProtocol.cpp:304-415`) ends if every iteration that goes on
has consumed something. The two branches with FIN == 1 know the length codes below 126 and 126;
`LONG_LENGTH`, 127, is defined and never used, so that `len` stays what it was. Without the mask
bit nothing else stops such an iteration (`terminates_iff`).
-/

namespace WebsocketCpp

/-- The loop, started on `data` in state `p`, ends: every iteration that goes on leaves less to
read, and some number of iterations is enough. -/
structure Terminates (p : WSProtocol) (data : List UInt8) : Prop where
  decreases : ∀ q rest r next, Reaches p data q rest →
    (decodeIter q rest).result = .ok (r, some next) → next.length < rest.length
  ends : ∃ n, (decodeLoop n p data).result ≠ .error .running

/-- Iterations that leave less to read come to an end. -/
theorem decodeLoop_ends {p : WSProtocol} {data : List UInt8} {n : Nat}
    (hdec : ∀ q rest r next, Reaches p data q rest →
      (decodeIter q rest).result = .ok (r, some next) → next.length < rest.length)
    (hiter : ∀ q rest, Reaches p data q rest → (decodeIter q rest).result ≠ .error .running)
    (hn : data.length < n) : (decodeLoop n p data).result ≠ .error .running := by
  induction n generalizing p data with
  | zero => exact absurd hn (Nat.not_lt_zero _)
  | succ n ih =>
      intro h
      rcases Traced.error_bind h with hres | ⟨⟨q, next⟩, hres, hrest⟩
      · exact hiter p data .here hres
      · cases next with
        | none => cases hrest
        | some rest =>
            have hlt := hdec p data q rest .here hres
            refine ih ?_ ?_ (by omega) hrest
            · intro r tail r' next hreach
              exact hdec r tail r' next (.later hres hreach)
            · intro r tail hreach
              exact hiter r tail (.later hres hreach)

/-- No single iteration is cut off. -/
theorem decodeIter_ne_running {p : WSProtocol} (hp : p.framePos ≤ MAX_FRAMESIZE)
    (data : List UInt8) : (decodeIter p data).result ≠ .error .running := by
  intro h
  have hout := decodeIter_outcome hp data
  rw [h] at hout
  cases hout with
  | frame f rest _ hdata =>
      subst hdata
      rcases receive_error (((decodeIter_wire p f rest).error_iff _).mp h) with
        ⟨-, he⟩ | ⟨-, -, he⟩ <;> cases he

/-- A front that spins keeps the loop going for ever. -/
theorem decodeLoop_spins {p : WSProtocol} (hp : p.framePos ≤ MAX_FRAMESIZE) {data : List UInt8}
    (h : Spins data) (n : Nat) : (decodeLoop n p data).result = .error .running := by
  rcases h with ⟨header, hhead, hfin, hmask, hcode⟩
  induction n generalizing p with
  | zero => rfl
  | succ n ih =>
      rcases decodeIter_reserved hhead hp hfin hcode hmask with ⟨q, hq, -⟩
      rw [decodeLoop, Traced.bind_of_ok hq]
      exact ih (framePos_decodeIter hp hq)

theorem terminates_of_framePos_le {p : WSProtocol} (hp : p.framePos ≤ MAX_FRAMESIZE)
    (data : List UInt8) :
    Terminates p data ↔
      ¬∃ fs tail, data = wires fs ++ tail ∧ Received p.reassembled fs ∧ Spins tail := by
  constructor
  · rintro hterm ⟨fs, tail, rfl, hrec, hspin⟩
    rcases hspin with ⟨header, hhead, hfin, hmask, hcode⟩
    have htail : tail ≠ [] := by
      rintro rfl
      cases hhead
    rcases reaches_wires (.inr htail) hrec with ⟨q, hreach, -⟩
    rcases decodeIter_reserved hhead (hreach.framePos_le hp) hfin hcode hmask with ⟨r, hr, -⟩
    exact absurd (hterm.decreases q tail r tail hreach hr) (Nat.lt_irrefl _)
  · intro hnot
    have hdec : ∀ q rest r next, Reaches p data q rest →
        (decodeIter q rest).result = .ok (r, some next) → next.length < rest.length := by
      intro q rest r next hreach hiter
      rcases wires_of_reaches hp hreach with ⟨fs, hdata, -, hrec, -⟩
      rcases decodeIter_continues (hreach.framePos_le hp) hiter with ⟨f, hfront, -⟩ | ⟨hspin, -⟩
      · have hwire := f.length_wire
        rw [hfront, List.length_append]
        omega
      · exact absurd ⟨fs, rest, hdata, hrec, hspin⟩ hnot
    have hiter : ∀ q rest, Reaches p data q rest → (decodeIter q rest).result ≠ .error .running :=
      fun q rest hreach => decodeIter_ne_running (hreach.framePos_le hp) rest
    exact ⟨hdec, data.length + 1, decodeLoop_ends hdec hiter (Nat.lt_succ_self _)⟩

/-- The loop ends, in any state that calls lead to and on any bytes, unless frames that are all
received bring it in front of FIN == 1, the length code 127 and no mask bit. -/
theorem terminates_iff (mem : Nat → UInt8) (calls : List (List UInt8)) (p : WSProtocol)
    (hp : (decodeCalls (.new mem) calls).result = .ok p) (data : List UInt8) :
    Terminates p data ↔
      ¬∃ fs tail, data = wires fs ++ tail ∧ Received p.reassembled fs ∧ Spins tail := by
  apply terminates_of_framePos_le
  exact framePos_decodeCalls (show (WSProtocol.new mem).framePos ≤ _ from Nat.zero_le _) hp

/-- A header that declares no payload ends the loop, even without the key behind it. -/
theorem terminates_header : Terminates (.new fun _ => 0) [0x11, 0x00] := by
  apply (terminates_iff (fun _ => 0) [] _ rfl [0x11, 0x00]).mpr
  rintro ⟨fs, tail, hdata, -, header, hhead, -, -, hcode⟩
  cases fs with
  | nil =>
      cases hdata
      cases hhead
      exact absurd hcode (by decide)
  | cons f fs =>
      have hlen := congrArg List.length hdata
      have hwire := f.length_wire
      rw [wires_cons, List.append_assoc, List.length_append] at hlen
      simp only [List.length_cons, List.length_nil] at hlen
      omega

/-- FIN == 1, text, no mask bit and the length code 127. -/
theorem not_terminates_reserved : ¬Terminates (.new fun _ => 0) [0x11, 0xFE] := by
  intro h
  exact absurd (h.decreases _ _ _ _ .here rfl) (Nat.lt_irrefl _)

end WebsocketCpp
