import SqlTemplate.Template.Rendering

/-!
# Outcomes of evaluations

An evaluation that succeeds gives a value and leaves a state behind (`Evaluation.Gives`). This
file says what the building blocks of evaluations give, so that the success of a composed
evaluation can be taken apart into the successes of its steps, in order.

## Main definitions

* `Evaluation.Gives` : an evaluation gives a value and leaves a state behind.
* `Evaluator.naming` : a language of expressions that has names only.

## Main results

* `Evaluation.gives_bind` : what is composed succeeds step by step.
* `Evaluation.gives_capture` : a captured evaluation starts from the empty text, and the text
  before it is there again afterwards.
* `exists_of_bind_eq_ok`, `exists_bind_eq_ok_iff` : the same for results without a state.
* `bind_apply` : what is composed goes on where its first step succeeds, whatever the state is of.
-/

/-- With results that leave a state behind, what is composed goes on from the value and the state of
a success, and stops at the state of a failure. -/
theorem SqlTemplate.bind_apply {ε σ α β : Type} (e : ExceptT ε (StateM σ) α)
    (f : α → ExceptT ε (StateM σ) β) (c : σ) :
    (e >>= f) c = match e c with
      | (.ok a, m) => f a m
      | (.error failure, m) => (.error failure, m) := by
  simp only [bind, ExceptT.bind, ExceptT.mk, StateT.bind, ExceptT.bindCont]
  rcases e c with ⟨failure | a, m⟩ <;> rfl

/-- What is composed succeeds step by step. -/
theorem SqlTemplate.exists_of_bind_apply_eq_ok {ε σ α β : Type} {e : ExceptT ε (StateM σ) α}
    {f : α → ExceptT ε (StateM σ) β} {c c' : σ} {b : β} (h : (e >>= f) c = (.ok b, c')) :
    ∃ a m, e c = (.ok a, m) ∧ f a m = (.ok b, c') := by
  rw [bind_apply] at h
  rcases he : e c with ⟨failure | a, m⟩
  · rw [he] at h
    cases h
  · rw [he] at h
    exact ⟨a, m, rfl, h⟩

namespace SqlTemplate.Evaluation

variable {α β : Type}

/-- From the state `c` an evaluation gives `a` and leaves the state `c'` behind. -/
def Gives (e : Evaluation α) (c : Context) (a : α) (c' : Context) : Prop :=
  e.run c = (.ok a, c')

variable {c c' : Context}

/-- An evaluation gives one value and leaves one state behind. -/
theorem Gives.unique {e : Evaluation α} {a b : α} {m : Context} (h : e.Gives c a c')
    (h' : e.Gives c b m) : a = b ∧ c' = m := by
  have hsame : (Except.ok a, c') = (Except.ok b, m) := h.symm.trans h'
  exact ⟨Except.ok.inj (congrArg Prod.fst hsame), congrArg Prod.snd hsame⟩

/-- An evaluation that does not fail gives something, and leaves its last state behind. -/
theorem exists_gives {e : Evaluation α} (h : (e.run c).1.isOk = true) :
    ∃ a, e.Gives c a (e.run c).2 := by
  rcases he : e.run c with ⟨failure | a, m⟩
  · rw [he] at h
    cases h
  · exact ⟨a, he⟩

@[simp] theorem gives_pure {a b : α} :
    (pure a : Evaluation α).Gives c b c' ↔ a = b ∧ c = c' := by
  change ((Except.ok a, c) : Except Failure α × Context) = (Except.ok b, c') ↔ _
  rw [Prod.mk.injEq, Except.ok.injEq]

theorem run_bind (e : Evaluation α) (f : α → Evaluation β) (c : Context) :
    (e >>= f).run c = match e.run c with
      | (.ok a, m) => (f a).run m
      | (.error failure, m) => (.error failure, m) := by
  unfold ExceptT.run
  rw [bind_apply]
  rcases e c with ⟨failure | a, m⟩ <;> rfl

theorem gives_bind {e : Evaluation α} {f : α → Evaluation β} {b : β} :
    (e >>= f).Gives c b c' ↔ ∃ a m, e.Gives c a m ∧ (f a).Gives m b c' := by
  refine ⟨exists_of_bind_apply_eq_ok, ?_⟩
  rintro ⟨a, m, he, hf⟩
  rw [Gives] at he
  rw [Gives, run_bind, he]
  exact hf

theorem gives_map {e : Evaluation α} {f : α → β} {b : β} :
    (f <$> e).Gives c b c' ↔ ∃ a, e.Gives c a c' ∧ f a = b := by
  rw [map_eq_pure_bind, gives_bind]
  simp only [gives_pure]
  constructor
  · rintro ⟨a, m, he, rfl, rfl⟩
    exact ⟨a, he, rfl⟩
  · rintro ⟨a, he, rfl⟩
    exact ⟨a, c', he, rfl, rfl⟩

theorem gives_read {f : Context → Except Failure α} {a : α} :
    (read f).Gives c a c' ↔ f c = .ok a ∧ c = c' := by
  have hrun : (read f).run c = (f c, c) := by
    change ((read.liftExcept (f c)).run c) = _
    rcases f c with failure | a <;> rfl
  rw [Gives, hrun, Prod.mk.injEq]

@[simp] theorem gives_write {s : String} {u : Unit} :
    (write s).Gives c u c' ↔ c.write s = c' := by
  change ((Except.ok (), c.write s) : Except Failure Unit × Context) = (Except.ok (), c') ↔ _
  rw [Prod.mk.injEq, eq_self, true_and]

@[simp] theorem gives_modify {f : Context → Context} {u : Unit} :
    (modify f : Evaluation Unit).Gives c u c' ↔ f c = c' := by
  change ((Except.ok (), f c) : Except Failure Unit × Context) = (Except.ok (), c') ↔ _
  rw [Prod.mk.injEq, eq_self, true_and]

@[simp] theorem gives_get {a : Context} :
    (get : Evaluation Context).Gives c a c' ↔ c = a ∧ c = c' := by
  change ((Except.ok c, c) : Except Failure Context × Context) = (Except.ok a, c') ↔ _
  rw [Prod.mk.injEq, Except.ok.injEq]

@[simp] theorem gives_next {n : Nat} :
    next.Gives c n c' ↔ c.counter = n ∧ { c with counter := c.counter + 1 } = c' := by
  change ((Except.ok c.counter, { c with counter := c.counter + 1 }) :
    Except Failure Nat × Context) = (Except.ok n, c') ↔ _
  rw [Prod.mk.injEq, Except.ok.injEq]

theorem run_capture (e : Evaluation α) (c : Context) :
    (capture e).run c = match e.run { c with sql := "" } with
      | (result, m) => (result.map fun a => (a, m.sql), { m with sql := c.sql }) :=
  rfl

theorem gives_capture {e : Evaluation α} {r : α × String} :
    (capture e).Gives c r c' ↔ ∃ m, e.Gives { c with sql := "" } r.1 m ∧
      m.sql = r.2 ∧ { m with sql := c.sql } = c' := by
  rw [Gives, run_capture]
  constructor
  · intro h
    rcases he : e.run { c with sql := "" } with ⟨failure | a, m⟩
    · rw [he] at h
      cases h
    · rw [he] at h
      cases h
      exact ⟨m, he, rfl, rfl⟩
  · rintro ⟨m, he, hs, rfl⟩
    rw [Gives] at he
    rw [he]
    exact congrArg (fun s => (Except.ok (r.1, s), { m with sql := c.sql })) hs

end SqlTemplate.Evaluation

namespace SqlTemplate

/-- Where a result that may be a failure is gone on from with success, both steps succeeded. -/
theorem exists_of_bind_eq_ok {ε α β : Type} {x : Except ε α} {f : α → Except ε β} {b : β}
    (h : x >>= f = .ok b) : ∃ a, x = .ok a ∧ f a = .ok b := by
  cases x with
  | error e => cases h
  | ok a => exact ⟨a, rfl, h⟩

/-- Success, step after step. -/
theorem exists_bind_eq_ok_iff {ε α β : Type} {x : Except ε α} {f : α → Except ε β} :
    (∃ b, x >>= f = .ok b) ↔ ∃ a, x = .ok a ∧ ∃ b, f a = .ok b := by
  constructor
  · rintro ⟨b, h⟩
    obtain ⟨a, hx, hf⟩ := exists_of_bind_eq_ok h
    exact ⟨a, hx, b, hf⟩
  · rintro ⟨a, rfl, b, hf⟩
    exact ⟨b, hf⟩

theorem exists_pure_eq_ok {ε α : Type} {a : α} : (∃ b, (pure a : Except ε α) = .ok b) ↔ True :=
  iff_true_intro ⟨a, rfl⟩

/-- Where it fails, its first step failed, or the first one succeeded and the second one failed. -/
theorem of_bind_eq_error {ε α β : Type} {x : Except ε α} {f : α → Except ε β} {e : ε}
    (h : x >>= f = .error e) : x = .error e ∨ ∃ a, x = .ok a ∧ f a = .error e := by
  cases x with
  | error e' =>
    cases h
    exact .inl rfl
  | ok a => exact .inr ⟨a, rfl, h⟩

/-- Wording a failure differently leaves successes as they are. -/
theorem eq_ok_of_mapError {ε ε' α : Type} {x : Except ε α} {f : ε → ε'} {a : α}
    (h : x.mapError f = .ok a) : x = .ok a := by
  cases x with
  | error e => cases h
  | ok b => exact congrArg Except.ok (Except.ok.inj h)

theorem exists_of_toBool {ε α : Type} {x : Except ε α} (h : x.toBool = true) :
    ∃ a, x = .ok a := by
  cases x with
  | error e => cases h
  | ok a => exact ⟨a, rfl⟩

/-- The language in which an expression is a name, and nothing else. -/
def Evaluator.naming : Evaluator where
  value scope source := match scope.resolve? source with
    | some value => .ok value
    | none => .error (.unresolved source)

end SqlTemplate
