import Mathlib.Control.Basic

/-!
# Computations with a trace

A `Traced ω ε α` is the record of a finished execution: the events of type `ω` it
emitted, in order, and either its value or the fault that stopped it. What was emitted
before a fault stays emitted, so a run that aborts half way can still be observed.

`Traced.Sim R` compares two executions that may work on different states: same events,
same fault, and values related by `R`. `Sim.bind` composes such comparisons and
`Sim.foldlM` is the induction rule for whole runs, stated over `List.foldlM`.
-/

namespace WebsocketCpp

/-- An execution: the emitted events and the value, or the fault that ended it. -/
structure Traced (ω ε α : Type) where
  out : List ω
  result : Except ε α

namespace Traced

variable {ω ε α β γ δ ι σ : Type}

instance : Monad (Traced ω ε) where
  pure a := ⟨[], .ok a⟩
  bind x f :=
    match x.result with
    | .ok a => ⟨x.out ++ (f a).out, (f a).result⟩
    | .error e => ⟨x.out, .error e⟩

/-- Emit one event. -/
def emit (o : ω) : Traced ω ε Unit := ⟨[o], .ok ()⟩

/-- Stop with a fault. -/
def fail (e : ε) : Traced ω ε α := ⟨[], .error e⟩

/-- Stop with the fault `e` unless `c` holds. -/
def require (c : Prop) [Decidable c] (e : ε) : Traced ω ε Unit :=
  if c then pure () else fail e

/-- A computation that emits nothing. -/
def ofExcept (x : Except ε α) : Traced ω ε α := ⟨[], x⟩

/-- Events under another name. -/
def mapOut (f : ω → γ) (x : Traced ω ε α) : Traced γ ε α := ⟨x.out.map f, x.result⟩

/-- Faults under another name. -/
def mapFault (f : ε → δ) (x : Traced ω ε α) : Traced ω δ α := ⟨x.out, x.result.mapError f⟩

/-- Hand the events to a callback with a state of its own, which runs as they are emitted. -/
def handle (f : σ → ω → Traced γ ε σ) (s : σ) (x : Traced ω ε α) : Traced γ ε (σ × α) := do
  let s ← x.out.foldlM f s
  let a ← ofExcept x.result
  pure (s, a)

@[simp] theorem out_pure (a : α) : (pure a : Traced ω ε α).out = [] := rfl
@[simp] theorem result_pure (a : α) : (pure a : Traced ω ε α).result = .ok a := rfl
@[simp] theorem result_fail (e : ε) : (fail e : Traced ω ε α).result = .error e := rfl
@[simp] theorem out_fail (e : ε) : (fail e : Traced ω ε α).out = [] := rfl

@[simp] theorem ofExcept_ok (a : α) : (ofExcept (.ok a) : Traced ω ε α) = pure a := rfl
@[simp] theorem ofExcept_error (e : ε) : (ofExcept (.error e) : Traced ω ε α) = fail e := rfl

theorem bind_of_ok {x : Traced ω ε α} {a : α} (h : x.result = .ok a) (f : α → Traced ω ε β) :
    x >>= f = ⟨x.out ++ (f a).out, (f a).result⟩ := by
  change (match x.result with
    | .ok a => (⟨x.out ++ (f a).out, (f a).result⟩ : Traced ω ε β)
    | .error e => ⟨x.out, .error e⟩) = _
  rw [h]

theorem bind_of_error {x : Traced ω ε α} {e : ε} (h : x.result = .error e)
    (f : α → Traced ω ε β) : x >>= f = ⟨x.out, .error e⟩ := by
  change (match x.result with
    | .ok a => (⟨x.out ++ (f a).out, (f a).result⟩ : Traced ω ε β)
    | .error e => ⟨x.out, .error e⟩) = _
  rw [h]

theorem id_map_eq (x : Traced ω ε α) : id <$> x = x := by
  rcases x with ⟨out, e | a⟩
  · rfl
  · simp [Functor.map]

theorem pure_bind_eq (a : α) (f : α → Traced ω ε β) : pure a >>= f = f a := by
  rw [bind_of_ok (a := a) rfl]
  rfl

theorem bind_assoc_eq (x : Traced ω ε α) (f : α → Traced ω ε β) (g : β → Traced ω ε γ) :
    x >>= f >>= g = x >>= fun a => f a >>= g := by
  rcases x with ⟨out, e | a⟩
  · rfl
  · simp only [bind]
    cases (f a).result <;> simp

instance : LawfulMonad (Traced ω ε) := LawfulMonad.mk' _ id_map_eq pure_bind_eq bind_assoc_eq

@[simp] theorem fail_bind (e : ε) (f : α → Traced ω ε β) : fail e >>= f = fail e := rfl

/-- A value of `x >>= f` is a value of `f` at a value of `x`. -/
theorem result_bind {x : Traced ω ε α} {f : α → Traced ω ε β} {b : β}
    (h : (x >>= f).result = .ok b) : ∃ a, x.result = .ok a ∧ (f a).result = .ok b := by
  cases hx : x.result with
  | error e => rw [bind_of_error hx] at h; cases h
  | ok a => rw [bind_of_ok hx] at h; exact ⟨a, rfl, h⟩

/-- A fault of `x >>= f` is one of `x`, or one of `f` at a value of `x`. -/
theorem error_bind {x : Traced ω ε α} {f : α → Traced ω ε β} {e : ε}
    (h : (x >>= f).result = .error e) :
    x.result = .error e ∨ ∃ a, x.result = .ok a ∧ (f a).result = .error e := by
  cases hx : x.result with
  | error e' =>
      rw [bind_of_error hx] at h
      cases h
      exact .inl rfl
  | ok a =>
      rw [bind_of_ok hx] at h
      exact .inr ⟨a, rfl, h⟩

/-- An execution that returns, cut behind its first part. -/
theorem bind_eq_ok_iff {x : Traced ω ε α} {f : α → Traced ω ε β} {out : List ω} {b : β} :
    x >>= f = ⟨out, .ok b⟩ ↔
      ∃ a out₁ out₂, x = ⟨out₁, .ok a⟩ ∧ f a = ⟨out₂, .ok b⟩ ∧ out = out₁ ++ out₂ := by
  constructor
  · intro h
    obtain ⟨a, ha, hb⟩ := result_bind (congrArg result h)
    rw [bind_of_ok ha] at h
    refine ⟨a, x.out, (f a).out, ?_, ?_, (congrArg Traced.out h).symm⟩
    · rw [← ha]
    · rw [← hb]
  · rintro ⟨a, out₁, out₂, rfl, hb, rfl⟩
    rw [bind_of_ok rfl, hb]

theorem mapOut_eq_ok {f : ω → γ} {x : Traced ω ε α} {out : List γ} {a : α}
    (h : mapOut f x = ⟨out, .ok a⟩) : ∃ out', x = ⟨out', .ok a⟩ ∧ out = out'.map f := by
  rcases x with ⟨out', result⟩
  cases h
  exact ⟨out', rfl, rfl⟩

/-- What has been emitted stays emitted. -/
theorem out_prefix_bind (x : Traced ω ε α) (f : α → Traced ω ε β) : x.out <+: (x >>= f).out := by
  cases hx : x.result with
  | error e =>
      have hout : (x >>= f).out = x.out := congrArg out (bind_of_error hx f)
      exact hout ▸ List.prefix_refl _
  | ok a =>
      have hout : (x >>= f).out = x.out ++ (f a).out := congrArg out (bind_of_ok hx f)
      exact hout ▸ List.prefix_append ..

/-- The callback alone decides what is seen of the events it is handed. -/
theorem out_handle (f : σ → ω → Traced γ ε σ) (s : σ) (x : Traced ω ε α) :
    (handle f s x).out = (x.out.foldlM f s).out := by
  unfold handle
  cases hs : (x.out.foldlM f s).result with
  | error e => rw [bind_of_error hs]
  | ok s' =>
      rw [bind_of_ok hs]
      cases x.result with
      | error e => rw [ofExcept_error, fail_bind, out_fail, List.append_nil]
      | ok a => rw [ofExcept_ok, pure_bind, out_pure, List.append_nil]

/-- What a computation and its callback have returned. -/
theorem result_handle {f : σ → ω → Traced γ ε σ} {s s' : σ} {x : Traced ω ε α} {a : α}
    (h : (handle f s x).result = .ok (s', a)) :
    (x.out.foldlM f s).result = .ok s' ∧ x.result = .ok a := by
  obtain ⟨s₁, hs₁, hrest⟩ := result_bind h
  obtain ⟨a₁, ha₁, hpair⟩ := result_bind hrest
  cases hpair
  exact ⟨hs₁, ha₁⟩

theorem result_mapFault {f : ε → δ} {x : Traced ω ε α} {a : α} (h : (mapFault f x).result = .ok a) :
    x.result = .ok a := by
  rcases x with ⟨out, e | a'⟩
  · cases h
  · cases h
    rfl

/-- The events of a computation that returns are handed over one after the other. -/
theorem handle_ok {f : σ → ω → Traced γ ε σ} {s s' : σ} {out : List ω} {out' : List γ}
    (h : out.foldlM f s = ⟨out', .ok s'⟩) (a : α) :
    handle f s ⟨out, .ok a⟩ = ⟨out', .ok (s', a)⟩ := by
  simp only [handle, h, ofExcept_ok, pure_bind]
  exact congrArg (Traced.mk · _) (List.append_nil _)

/-- A computation and its callback that return, each by itself. -/
theorem handle_eq_ok {f : σ → ω → Traced γ ε σ} {s s' : σ} {x : Traced ω ε α} {a : α} {out' : List γ}
    (h : handle f s x = ⟨out', .ok (s', a)⟩) :
    ∃ out, x = ⟨out, .ok a⟩ ∧ out.foldlM f s = ⟨out', .ok s'⟩ := by
  rcases x with ⟨out, result⟩
  rcases result_handle (congrArg Traced.result h) with ⟨hs, hresult⟩
  have hout : out' = (out.foldlM f s).out := by rw [← out_handle f s ⟨out, result⟩, h]
  refine ⟨out, congrArg _ hresult, ?_⟩
  rw [hout, ← hs]

/-- What the callback does with the events up to a fault. -/
theorem handle_error {f : σ → ω → Traced γ ε σ} {s s' : σ} {out : List ω} {out' : List γ}
    (h : out.foldlM f s = ⟨out', .ok s'⟩) (e : ε) :
    handle f s (⟨out, .error e⟩ : Traced ω ε α) = ⟨out', .error e⟩ := by
  simp only [handle, h, ofExcept_error, fail_bind]
  exact congrArg (Traced.mk · _) (List.append_nil _)

/-- A callback that passes on one event for each and does not fail. -/
theorem foldlM_map {f : σ → ω → Traced γ ε σ} {g : ω → γ} {h : σ → ω → σ}
    (hf : ∀ s o, f s o = ⟨[g o], .ok (h s o)⟩) (s : σ) (out : List ω) :
    out.foldlM f s = ⟨out.map g, .ok (out.foldl h s)⟩ := by
  induction out generalizing s with
  | nil => rfl
  | cons o out ih =>
      rw [List.foldlM_cons, hf, bind_of_ok rfl, ih]
      rfl

theorem handle_map {f : σ → ω → Traced γ ε σ} {g : ω → γ} {h : σ → ω → σ}
    (hf : ∀ s o, f s o = ⟨[g o], .ok (h s o)⟩) (s : σ) (x : Traced ω ε α) :
    handle f s x = ⟨x.out.map g, x.result.map fun a => (x.out.foldl h s, a)⟩ := by
  rcases x with ⟨out, e | a⟩
  · exact handle_error (foldlM_map hf s out) e
  · exact handle_ok (foldlM_map hf s out) a

/-- What both parts of a computation emit, it emits. -/
theorem forall_out_bind {Q : ω → Prop} {x : Traced ω ε α} {f : α → Traced ω ε β}
    (hx : ∀ o ∈ x.out, Q o) (hf : ∀ a, x.result = .ok a → ∀ o ∈ (f a).out, Q o) :
    ∀ o ∈ (x >>= f).out, Q o := by
  cases hok : x.result with
  | error e => rwa [bind_of_error hok]
  | ok a =>
      rw [bind_of_ok hok, List.forall_mem_append]
      exact ⟨hx, hf a hok⟩

theorem forall_out_foldlM {Q : γ → Prop} {f : σ → ω → Traced γ ε σ} {out : List ω}
    (hf : ∀ s, ∀ o ∈ out, ∀ o' ∈ (f s o).out, Q o') (s : σ) : ∀ o' ∈ (out.foldlM f s).out, Q o' := by
  induction out generalizing s with
  | nil => exact fun _ h => absurd h List.not_mem_nil
  | cons o out ih =>
      rw [List.foldlM_cons]
      refine forall_out_bind (hf s o List.mem_cons_self) fun s' _ => ih ?_ s'
      intro s o ho
      exact hf s o (List.mem_cons_of_mem _ ho)

theorem emit_bind (o : ω) (f : Unit → Traced ω ε β) :
    emit o >>= f = ⟨o :: (f ()).out, (f ()).result⟩ := rfl

theorem mk_bind (out : List ω) (a : α) (f : α → Traced ω ε β) :
    (⟨out, .ok a⟩ : Traced ω ε α) >>= f = ⟨out ++ (f a).out, (f a).result⟩ := rfl

@[simp] theorem map_emit (f : Unit → β) (o : ω) :
    f <$> (emit o : Traced ω ε Unit) = ⟨[o], .ok (f ())⟩ := rfl

@[simp] theorem map_fail (f : α → β) (e : ε) : f <$> (fail e : Traced ω ε α) = fail e := rfl

@[simp] theorem require_true {c : Prop} [Decidable c] (h : c) (e : ε) :
    (require c e : Traced ω ε Unit) = pure () := if_pos h

@[simp] theorem require_false {c : Prop} [Decidable c] (h : ¬c) (e : ε) :
    (require c e : Traced ω ε Unit) = fail e := if_neg h

/-- Two executions with the same events that end in the same fault, or in values related
by `R`. -/
def Sim (R : α → β → Prop) (x : Traced ω ε α) (y : Traced ω ε β) : Prop :=
  x.out = y.out ∧
    match x.result, y.result with
    | .ok a, .ok b => R a b
    | .error e, .error e' => e = e'
    | _, _ => False

namespace Sim

variable {R : α → β → Prop} {S : γ → δ → Prop}
variable {x : Traced ω ε α} {y : Traced ω ε β}

theorem out_eq (h : Sim R x y) : x.out = y.out := h.1

theorem pure {a : α} {b : β} (h : R a b) : Sim R (pure a : Traced ω ε α) (pure b) := ⟨rfl, h⟩

theorem fail (e : ε) : Sim R (fail e : Traced ω ε α) (Traced.fail e) := ⟨rfl, rfl⟩

theorem ok {out : List ω} {a : α} {b : β} (h : R a b) :
    Sim R (⟨out, .ok a⟩ : Traced ω ε α) ⟨out, .ok b⟩ := ⟨rfl, h⟩

theorem refl (x : Traced ω ε α) : Sim Eq x x := by
  refine ⟨rfl, ?_⟩
  cases x.result <;> rfl

theorem mono {R' : α → β → Prop} (h : Sim R x y) (hR : ∀ a b, R a b → R' a b) : Sim R' x y := by
  refine ⟨h.1, ?_⟩
  have hr := h.2
  cases hx : x.result <;> cases hy : y.result <;> simp_all

/-- Related executions end in the same fault. -/
theorem error_iff (h : Sim R x y) (e : ε) : x.result = .error e ↔ y.result = .error e := by
  obtain ⟨-, hr⟩ := h
  cases hx : x.result <;> cases hy : y.result <;> simp_all

/-- A related execution that returns has a counterpart that returns a related value. -/
theorem ok_left (h : Sim R x y) {a : α} (ha : x.result = .ok a) :
    ∃ b, y.result = .ok b ∧ R a b := by
  obtain ⟨-, hr⟩ := h
  rw [ha] at hr
  cases hy : y.result with
  | error e => simp [hy] at hr
  | ok b => exact ⟨b, rfl, by simpa [hy] using hr⟩

theorem ok_right (h : Sim R x y) {b : β} (hb : y.result = .ok b) :
    ∃ a, x.result = .ok a ∧ R a b := by
  obtain ⟨-, hr⟩ := h
  rw [hb] at hr
  cases hx : x.result with
  | error e => simp [hx] at hr
  | ok a => exact ⟨a, rfl, by simpa [hx] using hr⟩

/-- Sequencing related executions. -/
theorem bind {f : α → Traced ω ε γ} {g : β → Traced ω ε δ} (h : Sim R x y)
    (hfg : ∀ a b, R a b → Sim S (f a) (g b)) : Sim S (x >>= f) (y >>= g) := by
  cases hx : x.result with
  | error e =>
      have hy := (h.error_iff e).mp hx
      rw [bind_of_error hx, bind_of_error hy]
      exact ⟨h.out_eq, rfl⟩
  | ok a =>
      obtain ⟨b, hy, hab⟩ := h.ok_left hx
      have hs := hfg a b hab
      rw [bind_of_ok hx, bind_of_ok hy]
      exact ⟨by simp only [h.out_eq, hs.out_eq], hs.2⟩

/-- Nothing follows an execution that is known to stop. -/
theorem bind_fail {e : ε} (h : Sim R x (y >>= fun _ => Traced.fail e)) (f : α → Traced ω ε γ) :
    Sim S (x >>= f) (y >>= fun _ => (Traced.fail e : Traced ω ε δ)) := by
  cases hy : y.result with
  | error e' =>
      rw [bind_of_error hy] at h ⊢
      rw [bind_of_error ((h.error_iff e').mpr rfl)]
      exact ⟨h.out_eq, rfl⟩
  | ok b =>
      rw [bind_of_ok hy] at h ⊢
      rw [bind_of_error ((h.error_iff e).mpr rfl)]
      exact ⟨h.out_eq, rfl⟩

/-- Simulation along a run: related states, driven by the same inputs, stay related. -/
theorem foldlM {step : α → ι → Traced ω ε α} {step' : β → ι → Traced ω ε β} {inputs : List ι}
    (hstep : ∀ a b i, i ∈ inputs → R a b → Sim R (step a i) (step' b i)) {a : α} {b : β}
    (h : R a b) : Sim R (inputs.foldlM step a) (inputs.foldlM step' b) := by
  induction inputs generalizing a b with
  | nil => exact Sim.pure h
  | cons i is ih =>
      rw [List.foldlM_cons, List.foldlM_cons]
      apply Sim.bind (hstep a b i (by simp) h)
      intro a' b' hab
      exact ih (fun a b j hj => hstep a b j (List.mem_cons_of_mem _ hj)) hab

end Sim

end Traced

end WebsocketCpp
