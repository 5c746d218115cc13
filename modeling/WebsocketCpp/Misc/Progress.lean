import Mathlib.Algebra.GroupWithZero.Nat
import Mathlib.Data.List.Perm.Basic
import WebsocketCpp.Misc.Run

/-!
# How long a run can be

`Costs`: the steps of some kind use up a natural number and no other step gives any of it back, so
that a run has only so many of them. If every step is of the kind, a run can be continued until it is
`Quiet`, where nothing is allowed. What is `Quiet` under every order of steps is proved of a state
and not of a schedule.
-/

namespace WebsocketCpp

namespace Machine

variable {σ ι ω ε : Type} (M : Machine σ ι ω ε)

/-- A step from `P` takes one at least from `left` if it is one of `p`, and gives nothing back
otherwise. -/
def Costs (P : σ → Prop) (p : ι → Bool) (left : σ → Nat) : Prop :=
  ∀ s a s', P s → M.Allowed s a → (M.step s a).result = .ok s' →
    (if p a then 1 else 0) + left s' ≤ left s

/-- No step is allowed. -/
def Quiet (s : σ) : Prop := ∀ a, ¬M.Allowed s a

variable {M} {P : σ → Prop}

/-- A run has no more steps of `p` than there was to spend. -/
theorem Invariant.countP_le (h : M.Invariant P) {p : ι → Bool} {left : σ → Nat}
    (hcosts : M.Costs P p left) {s s' : σ} (hs : P s) {inputs : List ι} (hl : M.Legal s inputs)
    (hrun : (M.run s inputs).result = .ok s') : inputs.countP p + left s' ≤ left s := by
  induction inputs generalizing s with
  | nil =>
      rcases Except.ok.inj hrun
      simp
  | cons a inputs ih =>
      rcases Traced.result_bind hrun with ⟨s₁, hs₁, hrest⟩
      have hone := hcosts s a s₁ hs hl.1 hs₁
      have hmany := ih (h s a s₁ hs hl.1 hs₁) (hl.2 s₁ hs₁) hrest
      rw [List.countP_cons]
      omega

/-- If every step costs, a run can be continued until nothing is allowed any more. -/
theorem Invariant.exists_quiet (h : M.Invariant P) {left : σ → Nat}
    (hcosts : M.Costs P (fun _ => true) left) (hok : M.Succeeds P) {s : σ} (hs : P s) :
    ∃ inputs s', M.Legal s inputs ∧ (M.run s inputs).result = .ok s' ∧ M.Quiet s' := by
  -- on what is left to spend
  induction hn : left s using Nat.strongRecOn generalizing s with
  | ind n ih =>
      by_cases hquiet : M.Quiet s
      · exact ⟨[], s, trivial, rfl, hquiet⟩
      · simp only [Quiet, not_forall, not_not] at hquiet
        rcases hquiet with ⟨a, ha⟩
        rcases hok s a hs ha with ⟨s₁, hs₁⟩
        have hless : 1 + left s₁ ≤ left s := hcosts s a s₁ hs ha hs₁
        rcases ih (left s₁) (by omega) (h s a s₁ hs ha hs₁) rfl with ⟨inputs, s', hlegal, hrun, hq⟩
        refine ⟨a :: inputs, s', legal_cons ha hs₁ hlegal, ?_, hq⟩
        rw [run_cons, Traced.bind_of_ok hs₁]
        exact hrun

/-- A store that loses nothing in a step loses nothing in a run: what was in it and what has entered it is
what has left it and what is in it, in whatever order it leaves. -/
theorem Invariant.perm {α : Type} (h : M.Invariant P) {enters leaves : ω → Option α} {store : σ → List α}
    (hstep : ∀ s a s', P s → M.Allowed s a → (M.step s a).result = .ok s' →
      (store s ++ (M.step s a).out.filterMap enters).Perm
        ((M.step s a).out.filterMap leaves ++ store s'))
    {s s' : σ} (hs : P s) {inputs : List ι} (hl : M.Legal s inputs)
    (hrun : (M.run s inputs).result = .ok s') :
    (store s ++ (M.run s inputs).out.filterMap enters).Perm
      ((M.run s inputs).out.filterMap leaves ++ store s') := by
  induction inputs generalizing s with
  | nil =>
      rcases Except.ok.inj hrun
      simp
  | cons a inputs ih =>
      rcases Traced.result_bind hrun with ⟨s₁, hs₁, hrest⟩
      have hone := hstep s a s₁ hs hl.1 hs₁
      have hmany := ih (h s a s₁ hs hl.1 hs₁) (hl.2 s₁ hs₁) hrest
      rw [run_cons, Traced.bind_of_ok hs₁, List.filterMap_append, List.filterMap_append,
        ← List.append_assoc]
      refine (hone.append_right _).trans ?_
      rw [List.append_assoc, List.append_assoc]
      exact hmany.append_left _

/-- What is still to be done at the beginning comes first: a run does some of it, in its order, and at no
point more than a step has taken off. -/
theorem Invariant.sublist {α : Type} (h : M.Invariant P) {does : ω → α} {due : σ → List α}
    (hok : ∀ s a s', P s → M.Allowed s a → (M.step s a).result = .ok s' →
      ((M.step s a).out.map does ++ due s').Sublist (due s))
    (herr : ∀ s a e, P s → M.Allowed s a → (M.step s a).result = .error e →
      ((M.step s a).out.map does).Sublist (due s))
    {s : σ} (hs : P s) {inputs : List ι} (hl : M.Legal s inputs) :
    ((M.run s inputs).out.map does).Sublist (due s) := by
  induction inputs generalizing s with
  | nil => exact List.nil_sublist _
  | cons a inputs ih =>
      rw [run_cons]
      cases hstep : (M.step s a).result with
      | error e =>
          rw [Traced.bind_of_error hstep]
          exact herr s a e hs hl.1 hstep
      | ok s₁ =>
          have hrest := ih (h s a s₁ hs hl.1 hstep) (hl.2 s₁ hstep)
          rw [Traced.bind_of_ok hstep, List.map_append]
          exact (List.Sublist.append_left hrest _).trans (hok s a s₁ hs hl.1 hstep)

/-- What a step keeps of the state and of all that has been emitted before, a run keeps. -/
theorem run_history {P : List ω → σ → Prop}
    (hstep : ∀ past s a s', P past s → M.Allowed s a → (M.step s a).result = .ok s' →
      P (past ++ (M.step s a).out) s')
    {past : List ω} {s s' : σ} (hs : P past s) {inputs : List ι} (hl : M.Legal s inputs)
    (hrun : (M.run s inputs).result = .ok s') : P (past ++ (M.run s inputs).out) s' := by
  induction inputs generalizing s past with
  | nil =>
      rcases Except.ok.inj hrun
      simpa using hs
  | cons a inputs ih =>
      rcases Traced.result_bind hrun with ⟨s₁, hs₁, hrest⟩
      have hmany := ih (hstep past s a s₁ hs hl.1 hs₁) (hl.2 s₁ hs₁) hrest
      rwa [run_cons, Traced.bind_of_ok hs₁, ← List.append_assoc]

end Machine

/-! ## One element of a list replaced -/

variable {α : Type}

/-- A list around one of its places, with that element and with another one there. -/
theorem exists_append_of_getElem? {l : List α} {i : Nat} {a : α} (h : l[i]? = some a) :
    ∃ before after, l = before ++ a :: after ∧ before.length = i ∧
      ∀ b, l.set i b = before ++ b :: after := by
  rcases List.getElem?_eq_some_iff.mp h with ⟨hi, rfl⟩
  have hlen : (l.take i).length = i := List.length_take_of_le (Nat.le_of_lt hi)
  refine ⟨l.take i, l.drop (i + 1), by simp, hlen, ?_⟩
  intro b
  rw [List.set_eq_take_append_cons_drop, if_pos hi]

/-- The sum over a list when one element is replaced. -/
theorem sum_map_set {l : List α} {i : Nat} {a : α} (h : l[i]? = some a) (f : α → Nat) (b : α) :
    ((l.set i b).map f).sum + f a = (l.map f).sum + f b := by
  rcases exists_append_of_getElem? h with ⟨before, after, rfl, -, hset⟩
  rw [hset]
  simp only [List.map_append, List.map_cons, List.sum_append, List.sum_cons]
  omega

/-- The number of elements of a kind when one element is replaced. -/
theorem countP_set_add {l : List α} {i : Nat} {a : α} (h : l[i]? = some a) (p : α → Bool) (b : α) :
    (l.set i b).countP p + (if p a then 1 else 0) = l.countP p + if p b then 1 else 0 := by
  rcases exists_append_of_getElem? h with ⟨before, after, rfl, -, hset⟩
  rw [hset]
  simp only [List.countP_append, List.countP_cons]
  omega

/-- What the elements of a list hold when one element is replaced. -/
theorem filterMap_set_perm {β : Type} {l : List α} {i : Nat} {a : α} (h : l[i]? = some a)
    (f : α → Option β) (b : α) :
    ((f a).toList ++ (l.set i b).filterMap f).Perm ((f b).toList ++ l.filterMap f) := by
  rcases exists_append_of_getElem? h with ⟨before, after, rfl, -, hset⟩
  have hmap : ∀ c, (before ++ c :: after).filterMap f =
      before.filterMap f ++ ((f c).toList ++ after.filterMap f) := by
    intro c
    rw [List.filterMap_append]
    cases hc : f c <;> simp [hc]
  have hswap : ∀ xs ys zs : List β, (xs ++ (ys ++ zs)).Perm (ys ++ (xs ++ zs)) := by
    intro xs ys zs
    rw [← List.append_assoc, ← List.append_assoc]
    exact List.perm_append_comm.append_right zs
  rw [hset, hmap, hmap]
  refine (List.Perm.append_left _ (hswap _ _ _)).trans ?_
  exact (hswap _ _ _).trans (List.Perm.append_left _ (hswap _ _ _))

end WebsocketCpp
