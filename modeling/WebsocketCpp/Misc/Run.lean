import WebsocketCpp.Misc.Traced

/-!
# Runs of a machine

A `Machine` is a step function together with the inputs that a state may be given. A run is
`Legal` if every input is allowed in the state it meets. `Invariant` and `Succeeds` speak of one
allowed step; the induction over runs is done here once.
-/

namespace WebsocketCpp

/-- A step function, and which inputs the users of a state may give it. -/
structure Machine (σ ι ω ε : Type) where
  step : σ → ι → Traced ω ε σ
  Allowed : σ → ι → Prop

namespace Machine

variable {σ ι ω ε : Type} (M : Machine σ ι ω ε)

def run (s : σ) (inputs : List ι) : Traced ω ε σ := inputs.foldlM M.step s

/-- Every input is allowed in the state it meets. -/
def Legal : σ → List ι → Prop
  | _, [] => True
  | s, a :: inputs => M.Allowed s a ∧ ∀ s', (M.step s a).result = .ok s' → Legal s' inputs

/-- An allowed step that succeeds stays in `P`. -/
def Invariant (P : σ → Prop) : Prop :=
  ∀ s a s', P s → M.Allowed s a → (M.step s a).result = .ok s' → P s'

/-- An allowed step from a state of `P` succeeds. -/
def Succeeds (P : σ → Prop) : Prop :=
  ∀ s a, P s → M.Allowed s a → ∃ s', (M.step s a).result = .ok s'

/-- An allowed step from a state of `P` fails in the ways of `Fails` and in no other. -/
def FailsAs (P : σ → Prop) (Fails : σ → ι → ε → Prop) : Prop :=
  ∀ s a e, P s → M.Allowed s a → ((M.step s a).result = .error e ↔ Fails s a e)

/-- The machine whose users keep to a further condition. -/
def restrict (C : σ → ι → Prop) : Machine σ ι ω ε where
  step := M.step
  Allowed s a := M.Allowed s a ∧ C s a

/-- A legal run that succeeds, with what it emits and where it ends. -/
def Runs (s : σ) (inputs : List ι) (out : List ω) (s' : σ) : Prop :=
  M.Legal s inputs ∧ M.run s inputs = ⟨out, .ok s'⟩

@[simp] theorem run_nil (s : σ) : M.run s [] = pure s := rfl

@[simp] theorem run_cons (s : σ) (a : ι) (inputs : List ι) :
    M.run s (a :: inputs) = M.step s a >>= fun s => M.run s inputs := rfl

theorem run_append (s : σ) (xs ys : List ι) :
    M.run s (xs ++ ys) = M.run s xs >>= fun s => M.run s ys := List.foldlM_append

theorem run_singleton (s : σ) (a : ι) : M.run s [a] = M.step s a := bind_pure _

variable {M}

/-- A run that succeeds, cut in two. -/
theorem result_append {s s'' : σ} {xs ys : List ι} (h : (M.run s (xs ++ ys)).result = .ok s'') :
    ∃ s', (M.run s xs).result = .ok s' ∧ (M.run s' ys).result = .ok s'' := by
  rw [run_append] at h
  exact Traced.result_bind h

theorem legal_append {s : σ} {xs ys : List ι} :
    M.Legal s (xs ++ ys) ↔
      M.Legal s xs ∧ ∀ s', (M.run s xs).result = .ok s' → M.Legal s' ys := by
  induction xs generalizing s with
  | nil => exact ⟨fun h => ⟨trivial, fun s' hs' => Except.ok.inj hs' ▸ h⟩, fun h => h.2 s rfl⟩
  | cons a xs ih =>
      constructor
      · intro ⟨ha, hrest⟩
        refine ⟨⟨ha, fun s' hs' => (ih.mp (hrest s' hs')).1⟩, ?_⟩
        intro s'' hs''
        obtain ⟨s', hs', hrun⟩ := Traced.result_bind hs''
        exact (ih.mp (hrest s' hs')).2 s'' hrun
      · intro ⟨⟨ha, hrest⟩, hys⟩
        refine ⟨ha, fun s' hs' => ih.mpr ⟨hrest s' hs', fun s'' hs'' => hys s'' ?_⟩⟩
        rw [run_cons, Traced.bind_of_ok hs']
        exact hs''

/-- Every input of a legal run is allowed where it comes. -/
theorem allowed_of_isPrefix {s s' : σ} {inputs before : List ι} {a : ι} (hl : M.Legal s inputs)
    (hpre : before ++ [a] <+: inputs) (hrun : (M.run s before).result = .ok s') :
    M.Legal s before ∧ M.Allowed s' a := by
  obtain ⟨after, rfl⟩ := hpre
  obtain ⟨hbefore, hrest⟩ := legal_append.mp (legal_append.mp hl).1
  exact ⟨hbefore, (hrest s' hrun).1⟩

/-- A run can start with a step that succeeds. -/
theorem legal_cons {s s' : σ} {a : ι} {inputs : List ι} (ha : M.Allowed s a)
    (hok : (M.step s a).result = .ok s') (hrest : M.Legal s' inputs) : M.Legal s (a :: inputs) :=
  ⟨ha, fun s'' hs'' => by
    rw [hok] at hs''
    exact Except.ok.inj hs'' ▸ hrest⟩

theorem runs_nil (s : σ) : M.Runs s [] [] s := ⟨trivial, rfl⟩

theorem runs_cons {s s' s'' : σ} {a : ι} {inputs : List ι} {out out' : List ω} (ha : M.Allowed s a)
    (hstep : M.step s a = ⟨out, .ok s'⟩) (hrest : M.Runs s' inputs out' s'') :
    M.Runs s (a :: inputs) (out ++ out') s'' := by
  obtain ⟨hlegal, hrun⟩ := hrest
  refine ⟨legal_cons ha (by rw [hstep]) hlegal, ?_⟩
  rw [run_cons, hstep, Traced.mk_bind, hrun]

theorem legal_of_restrict {C : σ → ι → Prop} {s : σ} {inputs : List ι}
    (h : (M.restrict C).Legal s inputs) : M.Legal s inputs := by
  induction inputs generalizing s with
  | nil => trivial
  | cons a inputs ih => exact ⟨h.1.1, fun s' hs' => ih (h.2 s' hs')⟩

/-- The further condition is one on every step in the state it meets. -/
theorem legal_restrict_iff {C : σ → ι → Prop} {s : σ} {inputs : List ι} :
    (M.restrict C).Legal s inputs ↔ M.Legal s inputs ∧ ∀ before a, before ++ [a] <+: inputs →
      ∀ s', (M.run s before).result = .ok s' → C s' a := by
  constructor
  · intro h
    refine ⟨legal_of_restrict h, ?_⟩
    intro before a hpre s' hs'
    exact (allowed_of_isPrefix h hpre hs').2.2
  · rintro ⟨h, hC⟩
    induction inputs generalizing s with
    | nil => trivial
    | cons a inputs ih =>
        refine ⟨⟨h.1, hC [] a (List.prefix_cons_inj a |>.mpr List.nil_prefix) s rfl⟩, ?_⟩
        intro s' hok
        have hs' : (M.step s a).result = .ok s' := hok
        apply ih (h.2 s' hs')
        intro before b hpre s'' hs''
        apply hC (a :: before) b (List.prefix_cons_inj a |>.mpr hpre) s''
        rw [run_cons, Traced.bind_of_ok hs']
        exact hs''

/-- The further condition holds of every step if it holds of each one that comes after steps of which it
holds. -/
theorem legal_restrict_of_forall {C : σ → ι → Prop} {s : σ} {inputs : List ι} (hl : M.Legal s inputs)
    (h : ∀ before a s', before ++ [a] <+: inputs → (M.restrict C).Legal s before →
      (M.run s before).result = .ok s' → C s' a) : (M.restrict C).Legal s inputs := by
  induction inputs generalizing s with
  | nil => trivial
  | cons a inputs ih =>
      have ha : C s a := h [] a s (List.prefix_cons_inj a |>.mpr List.nil_prefix) trivial rfl
      refine ⟨⟨hl.1, ha⟩, fun s₁ hs₁ => ih (hl.2 s₁ hs₁) ?_⟩
      intro before b s' hpre hbefore hs'
      refine h (a :: before) b s' (List.prefix_cons_inj a |>.mpr hpre)
        (legal_cons (M := M.restrict C) ⟨hl.1, ha⟩ hs₁ hbefore) ?_
      rw [run_cons, Traced.bind_of_ok (show (M.step s a).result = .ok s₁ from hs₁)]
      exact hs'

/-- A run that fails, cut at the step that fails. -/
theorem result_error {s : σ} {inputs : List ι} {e : ε} (h : (M.run s inputs).result = .error e) :
    ∃ before a after s', inputs = before ++ a :: after ∧ (M.run s before).result = .ok s' ∧
      (M.step s' a).result = .error e ∧
      (M.run s inputs).out = (M.run s before).out ++ (M.step s' a).out := by
  induction inputs generalizing s with
  | nil => cases h
  | cons a inputs ih =>
      rw [run_cons] at h ⊢
      cases hstep : (M.step s a).result with
      | error e' =>
          rw [Traced.bind_of_error hstep] at h ⊢
          exact ⟨[], a, inputs, s, rfl, rfl, hstep.trans h, rfl⟩
      | ok s₁ =>
          rw [Traced.bind_of_ok hstep] at h ⊢
          obtain ⟨before, b, after, s', rfl, hbefore, herr, hout⟩ := ih h
          refine ⟨a :: before, b, after, s', rfl, ?_, herr, ?_⟩
          · rw [run_cons, Traced.bind_of_ok hstep]
            exact hbefore
          · rw [run_cons, Traced.bind_of_ok hstep, hout, List.append_assoc]

namespace Invariant

variable {P : σ → Prop}

/-- What holds of a state and is kept by every step holds after a run. -/
theorem run (h : M.Invariant P) {s s' : σ} (hs : P s) {inputs : List ι} (hl : M.Legal s inputs)
    (hrun : (M.run s inputs).result = .ok s') : P s' := by
  induction inputs generalizing s with
  | nil => exact Except.ok.inj hrun ▸ hs
  | cons a inputs ih =>
      obtain ⟨s₁, hs₁, hrest⟩ := Traced.result_bind hrun
      exact ih (h s a s₁ hs hl.1 hs₁) (hl.2 s₁ hs₁) hrest

/-- Legal runs succeed if steps from the invariant do. -/
theorem exists_run (h : M.Invariant P) (hP : M.Succeeds P) {s : σ} (hs : P s) {inputs : List ι}
    (hl : M.Legal s inputs) : ∃ s', (M.run s inputs).result = .ok s' := by
  induction inputs generalizing s with
  | nil => exact ⟨s, rfl⟩
  | cons a inputs ih =>
      obtain ⟨s₁, hs₁⟩ := hP s a hs hl.1
      rw [run_cons, Traced.bind_of_ok hs₁]
      exact ih (h s a s₁ hs hl.1 hs₁) (hl.2 s₁ hs₁)

/-- A legal run fails at the first step that does. -/
theorem result_error_iff (h : M.Invariant P) {Fails : σ → ι → ε → Prop} (hP : M.FailsAs P Fails) {s : σ}
    (hs : P s) {inputs : List ι} (hl : M.Legal s inputs) {e : ε} :
    (M.run s inputs).result = .error e ↔ ∃ before a s', before ++ [a] <+: inputs ∧
      (M.run s before).result = .ok s' ∧ Fails s' a e := by
  constructor
  · intro herr
    obtain ⟨before, a, after, s', rfl, hs', hstep, -⟩ := result_error herr
    have hpre : before ++ [a] <+: before ++ a :: after := ⟨after, by simp⟩
    obtain ⟨hbefore, ha⟩ := allowed_of_isPrefix hl hpre hs'
    exact ⟨before, a, s', hpre, hs', (hP s' a e (h.run hs hbefore hs') ha).mp hstep⟩
  · rintro ⟨before, a, s', hpre, hs', hfails⟩
    obtain ⟨hbefore, ha⟩ := allowed_of_isPrefix hl hpre hs'
    have hstep := (hP s' a e (h.run hs hbefore hs') ha).mpr hfails
    obtain ⟨after, rfl⟩ := hpre
    rw [List.append_assoc, run_append, Traced.bind_of_ok hs', List.singleton_append, run_cons,
      Traced.bind_of_error hstep]

/-- What every step from the invariant emits, a run emits. -/
theorem forall_out (h : M.Invariant P) {Q : ω → Prop}
    (hQ : ∀ s a, P s → M.Allowed s a → ∀ o ∈ (M.step s a).out, Q o) {s : σ} (hs : P s)
    {inputs : List ι} (hl : M.Legal s inputs) : ∀ o ∈ (M.run s inputs).out, Q o := by
  induction inputs generalizing s with
  | nil => simp
  | cons a inputs ih =>
      rw [run_cons]
      apply Traced.forall_out_bind (hQ s a hs hl.1)
      intro s₁ hstep
      exact ih (h s a s₁ hs hl.1 hstep) (hl.2 s₁ hstep)

/-- What holds between the events of a step and all later ones holds between any two in order. -/
theorem pairwise_out (h : M.Invariant P) {R : ω → ω → Prop}
    (hstep : ∀ s a, P s → M.Allowed s a → (M.step s a).out.Pairwise R)
    (hlater : ∀ s a s', P s → M.Allowed s a → (M.step s a).result = .ok s' →
      ∀ o ∈ (M.step s a).out, ∀ inputs, M.Legal s' inputs → ∀ o' ∈ (M.run s' inputs).out, R o o')
    {s : σ} (hs : P s) {inputs : List ι} (hl : M.Legal s inputs) :
    (M.run s inputs).out.Pairwise R := by
  induction inputs generalizing s with
  | nil => exact .nil
  | cons a inputs ih =>
      rw [run_cons]
      cases hok : (M.step s a).result with
      | error e =>
          rw [Traced.bind_of_error hok]
          exact hstep s a hs hl.1
      | ok s₁ =>
          rw [Traced.bind_of_ok hok, List.pairwise_append]
          exact ⟨hstep s a hs hl.1, ih (h s a s₁ hs hl.1 hok) (hl.2 s₁ hok),
            fun o ho o' ho' => hlater s a s₁ hs hl.1 hok o ho inputs (hl.2 s₁ hok) o' ho'⟩

/-- A queue that loses nothing in a step loses nothing in a run: what was in it and what has entered
it is what has left it and what is in it, in the same order. -/
theorem fifo {α : Type} (h : M.Invariant P) {enters leaves : ω → Option α} {queue : σ → List α}
    (hstep : ∀ s a s', P s → M.Allowed s a → (M.step s a).result = .ok s' →
      queue s ++ (M.step s a).out.filterMap enters =
        (M.step s a).out.filterMap leaves ++ queue s')
    {s s' : σ} (hs : P s) {inputs : List ι} (hl : M.Legal s inputs)
    (hrun : (M.run s inputs).result = .ok s') :
    queue s ++ (M.run s inputs).out.filterMap enters =
      (M.run s inputs).out.filterMap leaves ++ queue s' := by
  induction inputs generalizing s with
  | nil =>
      obtain rfl := Except.ok.inj hrun
      simp
  | cons a inputs ih =>
      obtain ⟨s₁, hs₁, hrest⟩ := Traced.result_bind hrun
      have hone := hstep s a s₁ hs hl.1 hs₁
      have hmany := ih (h s a s₁ hs hl.1 hs₁) (hl.2 s₁ hs₁) hrest
      rw [run_cons, Traced.bind_of_ok hs₁, List.filterMap_append, List.filterMap_append,
        ← List.append_assoc, hone, List.append_assoc, hmany, List.append_assoc]

/-- Events that every step pays for, out of what is left of a budget, are no more than the budget. -/
theorem countP_out (h : M.Invariant P) {p : ω → Bool} {left : σ → Nat}
    (hok : ∀ s a s', P s → M.Allowed s a → (M.step s a).result = .ok s' →
      (M.step s a).out.countP p + left s' ≤ left s)
    (herr : ∀ s a e, P s → M.Allowed s a → (M.step s a).result = .error e →
      (M.step s a).out.countP p ≤ left s)
    {s : σ} (hs : P s) {inputs : List ι} (hl : M.Legal s inputs) :
    (M.run s inputs).out.countP p ≤ left s := by
  induction inputs generalizing s with
  | nil => exact Nat.zero_le _
  | cons a inputs ih =>
      rw [run_cons]
      cases hstep : (M.step s a).result with
      | error e =>
          rw [Traced.bind_of_error hstep]
          exact herr s a e hs hl.1 hstep
      | ok s₁ =>
          rw [Traced.bind_of_ok hstep, List.countP_append]
          have hfirst := hok s a s₁ hs hl.1 hstep
          have hrest := ih (h s a s₁ hs hl.1 hstep) (hl.2 s₁ hstep)
          omega

end Invariant

end Machine

end WebsocketCpp
