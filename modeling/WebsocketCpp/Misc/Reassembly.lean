import Mathlib.Data.List.Basic

/-!
# Reassembling fragmented messages

A stream of fragments carries messages whole or in pieces: a `first` piece, any number of
`middle` pieces and a `last` one, with `whole` messages allowed in between. Two receivers
are compared.

* `messages` is the meaning of a stream: the open message is forgotten once its last piece
  has been delivered.
* `replay` is a receiver that forgets the buffered pieces only when the next `first` piece
  arrives, so that its buffer still holds a message after delivering it.

On the streams a well-behaved sender produces (`Grammatical`) the two agree, whatever the
buffer held before (`replay_of_grammatical`).
-/

namespace WebsocketCpp

/-- One unit of a stream of messages over `α`. -/
inductive Fragment (α : Type) where
  | whole (chunk : List α)
  | first (chunk : List α)
  | middle (chunk : List α)
  | last (chunk : List α)
  deriving DecidableEq, Repr

namespace Fragment

variable {α β : Type}

def chunk : Fragment α → List α
  | whole c | first c | middle c | last c => c

/-- The fragment completes a message. -/
def completes : Fragment α → Bool
  | whole _ | last _ => true
  | first _ | middle _ => false

/-- What the buffer holds after a fragment. -/
def keep (acc : List α) : Fragment α → List α
  | whole _ => acc
  | first c => c
  | middle c | last c => acc ++ c

/-- The messages a fragment delivers. -/
def emits (acc : List α) : Fragment α → List (List α)
  | whole c => [c]
  | first _ | middle _ => []
  | last c => [acc ++ c]

/-- The fragment finds room in a buffer of `cap` elements that holds `acc`. -/
def Fits (cap : Nat) (acc : List α) : Fragment α → Prop
  | whole _ => True
  | first c => c.length ≤ cap
  | middle c | last c => acc.length + c.length ≤ cap

instance (cap : Nat) (acc : List α) : (f : Fragment α) → Decidable (f.Fits cap acc)
  | whole _ => isTrue trivial
  | first c => inferInstanceAs (Decidable (c.length ≤ cap))
  | middle c | last c => inferInstanceAs (Decidable (acc.length + c.length ≤ cap))

/-- The buffer after a stream. -/
def pending (acc : List α) (fs : List (Fragment α)) : List α := fs.foldl keep acc

/-- The deliveries of the receiver that keeps its buffer. -/
def replay (acc : List α) : List (Fragment α) → List (List α)
  | [] => []
  | f :: fs => f.emits acc ++ replay (f.keep acc) fs

/-- The messages of a stream; `acc` is what has arrived of the open one. -/
def messages (acc : List α) : List (Fragment α) → List (List α)
  | [] => []
  | whole c :: fs => c :: messages acc fs
  | first c :: fs => messages c fs
  | middle c :: fs => messages (acc ++ c) fs
  | last c :: fs => (acc ++ c) :: messages [] fs

/-- What has arrived, at the end of the stream, of a message that is still open. -/
def opened (acc : List α) : List (Fragment α) → List α
  | [] => acc
  | whole _ :: fs => opened acc fs
  | first c :: fs => opened c fs
  | middle c :: fs => opened (acc ++ c) fs
  | last _ :: fs => opened [] fs

/-- The pieces of each message come in order and no two messages' pieces mix. The flag
tells whether a message is open. -/
def Grammatical : Bool → List (Fragment α) → Prop
  | _, [] => True
  | b, whole _ :: fs => Grammatical b fs
  | false, first _ :: fs => Grammatical true fs
  | true, middle _ :: fs => Grammatical true fs
  | true, last _ :: fs => Grammatical false fs
  | _, _ => False

instance decidableGrammatical : (b : Bool) → (fs : List (Fragment α)) → Decidable (Grammatical b fs)
  | true, [] => isTrue trivial
  | false, [] => isTrue trivial
  | true, whole _ :: fs => decidableGrammatical true fs
  | false, whole _ :: fs => decidableGrammatical false fs
  | false, first _ :: fs => decidableGrammatical true fs
  | true, middle _ :: fs => decidableGrammatical true fs
  | true, last _ :: fs => decidableGrammatical false fs
  | true, first _ :: _ => isFalse id
  | false, middle _ :: _ => isFalse id
  | false, last _ :: _ => isFalse id

@[simp] theorem pending_nil (acc : List α) : pending acc [] = acc := rfl

@[simp] theorem pending_cons (acc : List α) (f : Fragment α) (fs : List (Fragment α)) :
    pending acc (f :: fs) = pending (f.keep acc) fs := rfl

@[simp] theorem replay_nil (acc : List α) : replay acc [] = [] := rfl

@[simp] theorem replay_cons (acc : List α) (f : Fragment α) (fs : List (Fragment α)) :
    replay acc (f :: fs) = f.emits acc ++ replay (f.keep acc) fs := rfl

theorem pending_append (acc : List α) (fs gs : List (Fragment α)) :
    pending acc (fs ++ gs) = pending (pending acc fs) gs := List.foldl_append

theorem replay_append (acc : List α) (fs gs : List (Fragment α)) :
    replay acc (fs ++ gs) = replay acc fs ++ replay (pending acc fs) gs := by
  induction fs generalizing acc with
  | nil => rfl
  | cons f fs ih => simp [ih]

/-- A buffer within its bounds has room for a fragment exactly when it stays within them. -/
theorem fits_iff {cap : Nat} {acc : List α} (h : acc.length ≤ cap) (f : Fragment α) :
    f.Fits cap acc ↔ (f.keep acc).length ≤ cap := by
  cases f <;> simp [Fits, keep, h]

/-- Every completing fragment delivers once and no other fragment delivers. -/
theorem length_replay (acc : List α) (fs : List (Fragment α)) :
    (replay acc fs).length = fs.countP completes := by
  induction fs generalizing acc with
  | nil => rfl
  | cons f fs ih =>
      cases f <;> simp [emits, completes, ih, List.countP_cons, Nat.add_comm]

/-- On a grammatical stream keeping the buffer does no harm. Outside of a message the
buffer plays no role; inside of one it is the open message. -/
theorem replay_of_grammatical (fs : List (Fragment α)) (acc : List α) :
    (Grammatical false fs → ∀ old, replay old fs = messages acc fs) ∧
    (Grammatical true fs → replay acc fs = messages acc fs) := by
  induction fs generalizing acc with
  | nil => exact ⟨fun _ _ => rfl, fun _ => rfl⟩
  | cons f fs ih =>
      cases f with
      | whole c =>
          refine ⟨?_, ?_⟩
          · intro h old
            exact congrArg (c :: ·) ((ih acc).1 h old)
          · intro h
            exact congrArg (c :: ·) ((ih acc).2 h)
      | first c => exact ⟨fun h old => (ih c).2 h, fun h => absurd h (by simp [Grammatical])⟩
      | middle c =>
          exact ⟨fun h => absurd h (by simp [Grammatical]), fun h => (ih (acc ++ c)).2 h⟩
      | last c =>
          refine ⟨fun h => absurd h (by simp [Grammatical]), fun h => ?_⟩
          exact congrArg ((acc ++ c) :: ·) ((ih []).1 h (acc ++ c))

/-- Every fragment of the stream finds room when it arrives. -/
def AllFit (cap : Nat) (acc : List α) : List (Fragment α) → Prop
  | [] => True
  | f :: fs => f.Fits cap acc ∧ AllFit cap (f.keep acc) fs

theorem allFit_append (cap : Nat) (acc : List α) (fs gs : List (Fragment α)) :
    AllFit cap acc (fs ++ gs) ↔ AllFit cap acc fs ∧ AllFit cap (pending acc fs) gs := by
  induction fs generalizing acc with
  | nil => simp [AllFit]
  | cons f fs ih => simp [AllFit, ih, and_assoc]

theorem fits_of_length_le {cap : Nat} {acc : List α} {f : Fragment α}
    (h : acc.length + f.chunk.length ≤ cap) : f.Fits cap acc := by
  cases f with
  | whole c => trivial
  | first c => exact Nat.le_trans (Nat.le_add_left ..) h
  | middle c | last c => exact h

/-- A buffer that has room for everything has room for each fragment. -/
theorem allFit_of_length_le (cap : Nat) (fs : List (Fragment α)) (acc : List α)
    (h : acc.length + (fs.flatMap chunk).length ≤ cap) : AllFit cap acc fs := by
  induction fs generalizing acc with
  | nil => trivial
  | cons f fs ih =>
      rw [List.flatMap_cons, List.length_append] at h
      refine ⟨fits_of_length_le (by omega), ih _ ?_⟩
      cases f <;> simp only [keep, chunk, List.length_append] at h ⊢ <;> omega

/-- What is open never shrinks before it is delivered. -/
theorem length_le_of_open (fs : List (Fragment α)) (acc : List α) (cap : Nat)
    (hg : Grammatical true fs) (hm : ∀ m ∈ messages acc fs, m.length ≤ cap)
    (ho : (opened acc fs).length ≤ cap) : acc.length ≤ cap := by
  induction fs generalizing acc with
  | nil => exact ho
  | cons f fs ih =>
      cases f with
      | whole c => exact ih acc hg (fun m hm' => hm m (List.mem_cons_of_mem _ hm')) ho
      | first c => exact absurd hg (by simp [Grammatical])
      | middle c =>
          have h := ih (acc ++ c) hg hm ho
          simp only [List.length_append] at h
          omega
      | last c =>
          have h := hm (acc ++ c) (List.mem_cons_self ..)
          simp only [List.length_append] at h
          omega

/-- If no message of a grammatical stream is longer than the buffer, nor what is open at its
end, then every fragment fits. -/
theorem allFit_of_grammatical (cap : Nat) (fs : List (Fragment α)) (acc : List α) :
    (∀ m ∈ messages acc fs, m.length ≤ cap) → (opened acc fs).length ≤ cap →
    (Grammatical false fs → ∀ old, AllFit cap old fs) ∧
    (Grammatical true fs → AllFit cap acc fs) := by
  induction fs generalizing acc with
  | nil => exact fun _ _ => ⟨fun _ _ => trivial, fun _ => trivial⟩
  | cons f fs ih =>
      intro hm ho
      cases f with
      | whole c =>
          have h := ih acc (fun m hm' => hm m (List.mem_cons_of_mem _ hm')) ho
          exact ⟨fun hg old => ⟨trivial, h.1 hg old⟩, fun hg => ⟨trivial, h.2 hg⟩⟩
      | first c =>
          refine ⟨fun hg old => ⟨?_, (ih c hm ho).2 hg⟩,
            fun hg => absurd hg (by simp [Grammatical])⟩
          exact length_le_of_open fs c cap hg hm ho
      | middle c =>
          refine ⟨fun hg => absurd hg (by simp [Grammatical]), fun hg => ⟨?_, ?_⟩⟩
          · simpa [Fits] using length_le_of_open fs (acc ++ c) cap hg hm ho
          · exact (ih (acc ++ c) hm ho).2 hg
      | last c =>
          refine ⟨fun hg => absurd hg (by simp [Grammatical]), fun hg => ⟨?_, ?_⟩⟩
          · simpa [Fits] using hm (acc ++ c) (List.mem_cons_self ..)
          · exact (ih [] (fun m hm' => hm m (List.mem_cons_of_mem _ hm')) ho).1 hg (acc ++ c)

/-! ## One message -/

theorem emits_of_not_completes {f : Fragment α} (h : f.completes = false) (acc : List α) :
    f.emits acc = [] := by
  cases f with
  | whole c | last c => cases h
  | first c | middle c => rfl

/-- A message in pieces. -/
def pieces (c : List α) (cs : List (List α)) (d : List α) : List (Fragment α) :=
  first c :: (cs.map middle ++ [last d])

theorem replay_middles (acc : List α) (cs : List (List α)) (d : List α) :
    replay acc (cs.map middle ++ [last d]) = [acc ++ cs.flatten ++ d] := by
  induction cs generalizing acc with
  | nil => simp [emits]
  | cons c cs ih => simp [emits, keep, ih]

/-- The pieces are delivered together, whatever the buffer held before. -/
theorem replay_pieces (acc c : List α) (cs : List (List α)) (d : List α) :
    replay acc (pieces c cs d) = [c ++ cs.flatten ++ d] :=
  replay_middles c cs d

theorem allFit_middles {cap : Nat} {acc : List α} {cs : List (List α)} {d : List α} :
    AllFit cap acc (cs.map middle ++ [last d]) ↔ (acc ++ cs.flatten ++ d).length ≤ cap := by
  induction cs generalizing acc with
  | nil => simp [AllFit, Fits]
  | cons c cs ih =>
      simp only [List.map_cons, List.cons_append, AllFit, Fits, keep, ih, List.flatten_cons,
        List.length_append]
      omega

/-- The pieces find room exactly if the message does. -/
theorem allFit_pieces {cap : Nat} {acc c : List α} {cs : List (List α)} {d : List α} :
    AllFit cap acc (pieces c cs d) ↔ (c ++ cs.flatten ++ d).length ≤ cap := by
  rw [pieces, AllFit, Fits, keep, allFit_middles]
  simp only [List.length_append]
  omega

/-! ## Senders that may abandon a message -/

/-- Where a sender stands: `started` after a first piece, which it may still abandon for another
message, `inside` after further pieces. -/
inductive Phase where
  | idle
  | started
  | inside
  deriving DecidableEq, Repr

/-- The phase after a fragment, if the sender may send it. -/
def Phase.next : Phase → Fragment α → Option Phase
  | .inside, .whole _ | .inside, .first _ => none
  | _, .whole _ => some .idle
  | _, .first _ => some .started
  | .idle, .middle _ | .idle, .last _ => none
  | _, .middle _ => some .inside
  | _, .last _ => some .idle

/-- The phase after a stream, if the sender may send it. -/
def Phase.run (ph : Phase) (fs : List (Fragment α)) : Option Phase := fs.foldlM Phase.next ph

theorem Phase.run_append (ph : Phase) (fs gs : List (Fragment α)) :
    ph.run (fs ++ gs) = (ph.run fs).bind fun ph' => ph'.run gs := List.foldlM_append

theorem Phase.run_cons (ph : Phase) (f : Fragment α) (fs : List (Fragment α)) :
    ph.run (f :: fs) = (ph.next f).bind fun ph' => ph'.run fs := rfl

/-- A fragment is sent inside of a message or it might as well be the first one of the stream. -/
theorem Phase.next_cases {ph ph' : Phase} {f : Fragment α} (h : ph.next f = some ph') :
    (ph ≠ .idle ∧ Phase.inside.next f = some ph') ∨ Phase.idle.next f = some ph' := by
  cases f with
  | whole c | first c =>
      right
      cases ph <;> first | exact h | cases h
  | middle c | last c =>
      left
      cases ph with
      | idle => cases h
      | started | inside => exact ⟨by decide, h⟩

theorem Phase.run_cases {ph ph' : Phase} {fs : List (Fragment α)} (hne : fs ≠ [])
    (h : ph.run fs = some ph') :
    (ph ≠ .idle ∧ Phase.inside.run fs = some ph') ∨ Phase.idle.run fs = some ph' := by
  cases fs with
  | nil => exact absurd rfl hne
  | cons f fs =>
      obtain ⟨ph1, hph1, hrest⟩ := Option.bind_eq_some_iff.mp h
      rcases Phase.next_cases hph1 with ⟨hph, hinside⟩ | hidle
      · exact .inl ⟨hph, Option.bind_eq_some_iff.mpr ⟨ph1, hinside, hrest⟩⟩
      · exact .inr (Option.bind_eq_some_iff.mpr ⟨ph1, hidle, hrest⟩)

end Fragment

end WebsocketCpp
