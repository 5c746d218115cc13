import WebsocketCpp.Misc.Provenance

/-!
# Streams of several senders

An interleaving is a list of units, each with the sender it comes from; `sentBy s` is what `s` has
sent, in order. When the units are fragments of messages, the receiver can be run on the senders'
names in place of the elements: a delivery is then made of one sender's elements exactly if it is
`Uniform` (`uniform_iff_sources`).
-/

namespace WebsocketCpp

section Order

variable {α β : Type} [DecidableEq β]

/-- The units of one sender. -/
def sentBy (s : β) (order : List (β × α)) : List α := (order.filter (·.1 = s)).map Prod.snd

/-- Units in a row from one sender. -/
def tag (s : β) (units : List α) : List (β × α) := units.map (Prod.mk s)

theorem sentBy_append (s : β) (xs ys : List (β × α)) :
    sentBy s (xs ++ ys) = sentBy s xs ++ sentBy s ys := by
  simp [sentBy]

@[simp] theorem sentBy_tag_self (s : β) (units : List α) : sentBy s (tag s units) = units := by
  induction units with
  | nil => rfl
  | cons u us ih => simpa [sentBy, tag] using ih

@[simp] theorem sentBy_tag_of_ne {s s' : β} (h : s' ≠ s) (units : List α) :
    sentBy s (tag s' units) = [] := by
  simp [sentBy, tag, h]

theorem sentBy_concat_self (order : List (β × α)) (s : β) (u : α) :
    sentBy s (order ++ [(s, u)]) = sentBy s order ++ [u] := by
  simp [sentBy]

theorem sentBy_concat_of_ne {s s' : β} (h : s' ≠ s) (order : List (β × α)) (u : α) :
    sentBy s (order ++ [(s', u)]) = sentBy s order := by
  simp [sentBy, h]

omit [DecidableEq β] in
@[simp] theorem map_snd_tag (s : β) (units : List α) : (tag s units).map Prod.snd = units := by
  simp [tag, Function.comp_def]

theorem sentBy_map {γ : Type} (s : β) (f : α → γ) (order : List (β × α)) :
    sentBy s (order.map fun x => (x.1, f x.2)) = (sentBy s order).map f := by
  rw [sentBy, sentBy, List.filter_map, List.map_map, List.map_map]
  rfl

theorem mem_sentBy {s : β} {u : α} {order : List (β × α)} (h : (s, u) ∈ order) : u ∈ sentBy s order :=
  List.mem_map_of_mem (List.mem_filter.mpr ⟨h, decide_eq_true rfl⟩)

theorem sentBy_sublist (s : β) {xs ys : List (β × α)} (h : xs.Sublist ys) :
    (sentBy s xs).Sublist (sentBy s ys) := (h.filter _).map _

theorem sentBy_prefix_sentBy (s : β) {xs ys : List (β × α)} (h : xs <+: ys) : sentBy s xs <+: sentBy s ys :=
  (h.filter _).map _

theorem sentBy_filterMap {γ : Type} (s : β) (f : γ → Option (β × α)) (l : List γ) :
    sentBy s (l.filterMap f) =
      l.filterMap fun x => (f x).bind fun u => if u.1 = s then some u.2 else none := by
  induction l with
  | nil => rfl
  | cons x l ih =>
      rw [List.filterMap_cons, List.filterMap_cons, ← ih]
      cases f x with
      | none => rfl
      | some u =>
          by_cases hu : u.1 = s <;> simp [sentBy, hu]

theorem sentBy_eq_map {s : β} {order : List (β × α)} (h : ∀ x ∈ order, x.1 = s) :
    sentBy s order = order.map Prod.snd := by
  rw [sentBy, List.filter_eq_self.mpr fun x hx => decide_eq_true (h x hx)]

theorem sentBy_cons_of_ne {s : β} {x : β × α} (h : x.1 ≠ s) (order : List (β × α)) :
    sentBy s (x :: order) = sentBy s order := by
  simp [sentBy, h]

/-- An interleaving without units of `s`. -/
theorem fst_ne_of_sentBy_eq_nil {s : β} {order : List (β × α)} (h : sentBy s order = []) :
    ∀ x ∈ order, x.1 ≠ s := by
  intro x hx heq
  have hmem : x.2 ∈ sentBy s order :=
    List.mem_map_of_mem (List.mem_filter.mpr ⟨hx, decide_eq_true heq⟩)
  rw [h] at hmem
  cases hmem

/-- Where the only unit of a sender stands. -/
theorem split_of_sentBy_eq_singleton {s : β} {u : α} {order : List (β × α)}
    (h : sentBy s order = [u]) :
    ∃ pre post, order = pre ++ (s, u) :: post ∧ (∀ x ∈ pre, x.1 ≠ s) ∧ ∀ x ∈ post, x.1 ≠ s := by
  induction order with
  | nil => cases h
  | cons x xs ih =>
      by_cases hx : x.1 = s
      · have hcons : sentBy s (x :: xs) = x.2 :: sentBy s xs := by simp [sentBy, hx]
        rw [hcons] at h
        obtain ⟨rfl, hnil⟩ := List.cons.inj h
        exact ⟨[], xs, by rw [← hx]; rfl, by simp, fst_ne_of_sentBy_eq_nil hnil⟩
      · rw [sentBy_cons_of_ne hx] at h
        obtain ⟨pre, post, rfl, hpre, hpost⟩ := ih h
        exact ⟨x :: pre, post, rfl, List.forall_mem_cons.mpr ⟨hx, hpre⟩, hpost⟩

end Order

/-- All elements are the same. -/
def Uniform {β : Type} (xs : List β) : Prop := ∀ a ∈ xs, ∀ b ∈ xs, a = b

theorem Uniform.of_forall_eq {β : Type} {xs : List β} {s : β} (h : ∀ a ∈ xs, a = s) : Uniform xs :=
  fun a ha b hb => (h a ha).trans (h b hb).symm

namespace Fragment

variable {α β : Type}

/-- The sender's name in place of the elements of a fragment. -/
def labelled (x : β × Fragment α) : Fragment β := x.2.map fun _ => x.1

theorem mem_chunk_labelled {x : β × Fragment α} {b : β} (h : b ∈ (labelled x).chunk) : b = x.1 := by
  obtain ⟨s, f⟩ := x
  cases f <;> (obtain ⟨_, -, rfl⟩ := List.mem_map.mp h; rfl)

theorem length_chunk_labelled (x : β × Fragment α) :
    (labelled x).chunk.length = x.2.chunk.length := by
  obtain ⟨s, f⟩ := x
  cases f <;> exact List.length_map _

theorem number_labelled (x : β × Fragment α) (n : Nat) : (labelled x).number n = x.2.number n := by
  obtain ⟨s, f⟩ := x
  cases f <;> simp only [labelled, map, number, List.length_map]

theorem numbers_labelled (xs : List (β × Fragment α)) (n : Nat) :
    numbers n (xs.map labelled) = numbers n (xs.map Prod.snd) := by
  induction xs generalizing n with
  | nil => rfl
  | cons x xs ih =>
      rw [List.map_cons, List.map_cons, numbers, numbers, number_labelled, length_chunk_labelled, ih]

/-- The label of the element with a number. -/
def labelOf (xs : List (β × Fragment α)) (d : β) (t : Nat) : β :=
  ((xs.map labelled).flatMap chunk).getD t d

/-- Run on the labels, the receiver delivers the labels of what it delivers. -/
theorem replay_labelled (xs : List (β × Fragment α)) (r : Nat) (d : β) :
    replay [] ((xs.map labelled).take r) =
      (sources (xs.map Prod.snd) r).map (List.map (labelOf xs d)) := by
  have hsources : sources (xs.map Prod.snd) r = sources (xs.map labelled) r := by
    rw [sources, sources, numbers_labelled]
  rw [hsources]
  exact replay_eq_sources (xs.map labelled) r d

/-- The elements of a delivery have one label. -/
theorem uniform_iff_sources (xs : List (β × Fragment α)) (r : Nat) (d : β) :
    (∀ m ∈ replay [] ((xs.map labelled).take r), Uniform m) ↔
      ∀ m ∈ sources (xs.map Prod.snd) r, ∀ t ∈ m, ∀ t' ∈ m,
        labelOf xs d t = labelOf xs d t' := by
  rw [replay_labelled xs r d, List.forall_mem_map]
  apply forall₂_congr
  intro m _
  constructor
  · intro h t ht t' ht'
    exact h _ (List.mem_map_of_mem ht) _ (List.mem_map_of_mem ht')
  · intro h a ha b hb
    obtain ⟨t, ht, rfl⟩ := List.mem_map.mp ha
    obtain ⟨t', ht', rfl⟩ := List.mem_map.mp hb
    exact h t ht t' ht'

/-- Deliveries do not mix if all messages in pieces come from one sender. -/
theorem uniform_replay {s : β} {acc : List β} {fs : List (Fragment β)} (hacc : ∀ b ∈ acc, b = s)
    (h : ∀ f ∈ fs, (∀ b ∈ f.chunk, b = s) ∨ ∃ c, f = whole c ∧ Uniform c) :
    ∀ m ∈ replay acc fs, Uniform m := by
  induction fs generalizing acc with
  | nil => simp
  | cons f fs ih =>
      obtain ⟨hf, hfs⟩ := List.forall_mem_cons.mp h
      rw [replay_cons, List.forall_mem_append]
      rcases hf with hchunk | ⟨c, rfl, huniform⟩
      · have happ : ∀ b ∈ acc ++ f.chunk, b = s := List.forall_mem_append.mpr ⟨hacc, hchunk⟩
        cases f with
        | whole c =>
            exact ⟨List.forall_mem_singleton.mpr (.of_forall_eq hchunk), ih hacc hfs⟩
        | first c => exact ⟨by simp [emits], ih hchunk hfs⟩
        | middle c => exact ⟨by simp [emits], ih happ hfs⟩
        | last c => exact ⟨List.forall_mem_singleton.mpr (.of_forall_eq happ), ih happ hfs⟩
      · exact ⟨List.forall_mem_singleton.mpr huniform, ih hacc hfs⟩

/-! ### Deliveries by sender -/

/-- The deliveries with the sender of the fragment that completes them. -/
def replayBy (acc : List α) : List (β × Fragment α) → List (β × List α)
  | [] => []
  | x :: xs => tag x.1 (x.2.emits acc) ++ replayBy (x.2.keep acc) xs

theorem map_snd_replayBy (acc : List α) (xs : List (β × Fragment α)) :
    (replayBy acc xs).map Prod.snd = replay acc (xs.map Prod.snd) := by
  induction xs generalizing acc with
  | nil => rfl
  | cons x xs ih => rw [replayBy, List.map_append, map_snd_tag, ih, List.map_cons, replay_cons]

/-- What the buffer holds plays no role for messages that are not in pieces. -/
theorem replay_of_whole {fs : List (Fragment α)} (h : ∀ f ∈ fs, ∃ c, f = whole c) (acc acc' : List α) :
    replay acc fs = replay acc' fs := by
  induction fs generalizing acc acc' with
  | nil => rfl
  | cons f fs ih =>
      rcases List.forall_mem_cons.mp h with ⟨⟨c, rfl⟩, hfs⟩
      exact congrArg (c :: ·) (ih hfs acc acc')

/-- So that it may be emptied anywhere. -/
theorem flatMap_replay_of_whole {cuts : List (List (Fragment α))}
    (h : ∀ f ∈ cuts.flatten, ∃ c, f = whole c) : cuts.flatMap (replay []) = replay [] cuts.flatten := by
  induction cuts with
  | nil => rfl
  | cons c cuts ih =>
      rw [List.flatten_cons, List.forall_mem_append] at h
      rw [List.flatMap_cons, List.flatten_cons, replay_append, ih h.2]
      exact congrArg _ (replay_of_whole h.2 _ _)

/-- If one sender alone sends messages in pieces, every sender's messages are delivered as if there were
no other one. -/
theorem sentBy_replayBy [DecidableEq β] {s₀ : β} {xs : List (β × Fragment α)}
    (h : ∀ x ∈ xs, x.1 ≠ s₀ → ∃ c, x.2 = whole c) (acc : List α) (s : β) :
    sentBy s (replayBy acc xs) = replay acc (sentBy s xs) := by
  induction xs generalizing acc with
  | nil => rfl
  | cons x xs ih =>
      rcases List.forall_mem_cons.mp h with ⟨hx, hxs⟩
      rw [replayBy, sentBy_append, ih hxs]
      by_cases hs : x.1 = s
      · subst hs
        have hcons : sentBy x.1 (x :: xs) = x.2 :: sentBy x.1 xs := by simp [sentBy]
        rw [sentBy_tag_self, hcons, replay_cons]
      · rw [sentBy_tag_of_ne hs, sentBy_cons_of_ne hs, List.nil_append]
        by_cases hx₀ : x.1 = s₀
        · -- the others send no pieces, so that the buffer is none of their business
          refine replay_of_whole (fun f hf => ?_) _ _
          rcases List.mem_map.mp hf with ⟨y, hy, rfl⟩
          rcases List.mem_filter.mp hy with ⟨hmem, hsender⟩
          refine hxs y hmem ?_
          rintro hy₀
          exact hs (hx₀.trans (hy₀.symm.trans (of_decide_eq_true hsender)))
        · rcases hx hx₀ with ⟨c, hc⟩
          rw [hc]
          rfl

/-- Pieces after the first one add to the buffer. -/
theorem mem_pending {b : β} {acc : List β} {fs : List (Fragment β)} (hb : b ∈ acc)
    (h : ∀ f ∈ fs, ∃ c, f = middle c) : b ∈ pending acc fs := by
  induction fs generalizing acc with
  | nil => exact hb
  | cons f fs ih =>
      obtain ⟨⟨c, rfl⟩, hfs⟩ := List.forall_mem_cons.mp h
      exact ih (List.mem_append_left _ hb) hfs

/-- A last piece behind the first piece of another sender delivers both. -/
theorem not_uniform_replay {s s' : β} (hne : s ≠ s') {acc : List β} {before pieces after :
    List (Fragment β)} {c c' : List β} (hs : s ∈ c) (hpieces : ∀ f ∈ pieces, ∃ c, f = middle c)
    (hs' : s' ∈ c') {r : Nat} (hr : (before ++ first c :: pieces).length < r) :
    ¬∀ m ∈ replay acc ((before ++ first c :: pieces ++ last c' :: after).take r), Uniform m := by
  intro h
  obtain ⟨n, hn⟩ := Nat.exists_eq_add_of_lt hr
  have htake : (before ++ first c :: pieces ++ last c' :: after).take r =
      before ++ first c :: pieces ++ last c' :: after.take n := by
    rw [hn, Nat.add_assoc, List.take_length_add_append, List.take_succ_cons]
  have hheld : s ∈ pending acc (before ++ first c :: pieces) := by
    rw [pending_append, pending_cons, keep]
    exact mem_pending hs hpieces
  have hmem : pending acc (before ++ first c :: pieces) ++ c' ∈
      replay acc (before ++ first c :: pieces ++ last c' :: after.take n) := by
    rw [replay_append]
    exact List.mem_append_right _ (List.mem_cons_self ..)
  rw [htake] at h
  exact hne (h _ hmem s (List.mem_append_left _ hheld) s' (List.mem_append_right _ hs'))

end Fragment

end WebsocketCpp
