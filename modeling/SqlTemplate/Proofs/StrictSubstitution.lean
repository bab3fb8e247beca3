import SqlTemplate.Proofs.EarlierText
import SqlTemplate.Proofs.StaticTemplates

/-!
# Strict substitution

With strict substitution, a substitution without a value is a failure. Two runs of one template
that differ in this alone go through the same states until the strict one comes upon such a
substitution, wherever that stands: within a loop, within content that is captured, or within a
branch. It then fails with what tells of it, and nothing catches the failure. Until then every other
failure is met by both runs in the same place.

## Main definitions

* `OrUnresolved` : a result is the same as another one, or the failure of a substitution.
* `Evaluation.Narrows` : an evaluation does as another one does, or fails over a substitution.

## Main results

* `Evaluation.narrows_bind`, `Evaluation.narrows_capture` : composed and captured evaluations.
* `Template.narrows_render` : the evaluation of a template.
* `Source.strict_only_rejects` : compiled templates and their bound SQL.
-/

namespace SqlTemplate

/-- The surroundings with strict substitution on or off. -/
def Surroundings.withStrict (surroundings : Surroundings) (strict : Bool) : Surroundings :=
  { surroundings with strict }

/-- The engine with strict substitution on or off. -/
def Engine.withStrict (engine : Engine) (strict : Bool) : Engine :=
  { engine with strict }

/-! ### Results -/

section OrUnresolved

variable {α β : Type}

/-- The first result is the second one, or the failure of a substitution without a value. -/
def OrUnresolved (strict lax : Except Failure α) : Prop :=
  strict = lax ∨ ∃ source, strict = .error (.unresolvedSubstitution source)

theorem OrUnresolved.refl (r : Except Failure α) : OrUnresolved r r :=
  .inl rfl

theorem OrUnresolved.bind {strict lax : Except Failure α} {f g : α → Except Failure β}
    (h : OrUnresolved strict lax) (hf : ∀ a, OrUnresolved (f a) (g a)) :
    OrUnresolved (strict >>= f) (lax >>= g) := by
  rcases h with rfl | ⟨source, rfl⟩
  · cases strict with
    | error failure => exact .refl _
    | ok a => exact hf a
  · exact .inr ⟨source, rfl⟩

end OrUnresolved

/-! ### Substitutions -/

namespace Marker

/-- Text is put together alike until a body has no text. -/
theorem orUnresolved_assemble {strict lax : String → Except Failure String}
    (h : ∀ body, OrUnresolved (strict body) (lax body)) (ps : List Piece) :
    OrUnresolved (assemble strict ps) (assemble lax ps) := by
  induction ps with
  | nil => exact .refl _
  | cons p rest ih =>
    cases p with
    | char c => exact ih.bind fun _ => .refl _
    | token body => exact (h _).bind fun _ => ih.bind fun _ => .refl _

theorem orUnresolved_replaceM (k : Marker) {strict lax : String → Except Failure String}
    (h : ∀ body, OrUnresolved (strict body) (lax body)) (s : String) :
    OrUnresolved (k.replaceM strict s) (k.replaceM lax s) := by
  rw [replaceM, replaceM, map_eq_pure_bind, map_eq_pure_bind]
  exact (orUnresolved_assemble h _).bind fun _ => .refl _

end Marker

namespace Context

variable (c : Context) (surroundings : Surroundings)

/-- The option decides over a substitution without a value, and over nothing else. -/
theorem orUnresolved_substitution (body : String) :
    OrUnresolved (c.substitution (surroundings.withStrict true) body)
      (c.substitution (surroundings.withStrict false) body) := by
  have hvalue (strict : Bool) (source : String) :
      (surroundings.withStrict strict).evaluator.value (c.scope (surroundings.withStrict strict))
        source = surroundings.evaluator.value (c.scope surroundings) source :=
    rfl
  simp only [substitution, hvalue]
  rcases surroundings.evaluator.value (c.scope surroundings) (Text.trimmed body) with fault | v
  · cases fault with
    | unresolved name => exact .inr ⟨_, rfl⟩
    | nullTarget name => exact .inr ⟨_, rfl⟩
    | _ => exact .refl _
  · cases v <;> exact .refl _

theorem orUnresolved_substitute (text : String) :
    OrUnresolved (c.substitute (surroundings.withStrict true) text)
      (c.substitute (surroundings.withStrict false) text) :=
  Marker.substitution.orUnresolved_replaceM (c.orUnresolved_substitution surroundings) text

end Context

/-! ### Evaluations -/

namespace Evaluation

variable {α β : Type}

/-- From every state the first evaluation does as the second one does, or it fails over a
substitution without a value. -/
def Narrows (strict lax : Evaluation α) : Prop :=
  ∀ c, strict.run c = lax.run c ∨
    ∃ source, (strict.run c).1 = .error (.unresolvedSubstitution source)

theorem narrows_refl (e : Evaluation α) : e.Narrows e :=
  fun _ => .inl rfl

theorem narrows_bind {strict lax : Evaluation α} {f g : α → Evaluation β}
    (h : strict.Narrows lax) (hf : ∀ a, (f a).Narrows (g a)) :
    (strict >>= f).Narrows (lax >>= g) := by
  intro c
  rw [run_bind, run_bind]
  rcases h c with hsame | ⟨source, hfailed⟩
  · rw [hsame]
    rcases lax.run c with ⟨failure | a, m⟩
    · exact .inl rfl
    · exact hf a m
  · rcases hrun : strict.run c with ⟨result, m⟩
    rw [hrun] at hfailed
    obtain rfl : result = .error (.unresolvedSubstitution source) := hfailed
    exact .inr ⟨source, rfl⟩

theorem narrows_read {f g : Context → Except Failure α} (h : ∀ c, OrUnresolved (f c) (g c)) :
    (read f).Narrows (read g) := by
  intro c
  rw [run_read, run_read]
  rcases h c with hsame | hfailed
  · exact .inl (by rw [hsame])
  · exact .inr hfailed

/-- What is captured is captured alike, and a failure within it goes on outside. -/
theorem narrows_capture {strict lax : Evaluation α} (h : strict.Narrows lax) :
    (capture strict).Narrows (capture lax) := by
  intro c
  rw [run_capture, run_capture]
  rcases h { c with sql := "" } with hsame | ⟨source, hfailed⟩
  · exact .inl (by rw [hsame])
  · rcases hrun : strict.run { c with sql := "" } with ⟨result, m⟩
    rw [hrun] at hfailed
    obtain rfl : result = .error (.unresolvedSubstitution source) := hfailed
    exact .inr ⟨source, rfl⟩

end Evaluation

open Evaluation

/-! ### Loops -/

namespace Loop

variable (loop : Loop) {strict lax : Evaluation Bool}

theorem narrows_iterate (h : strict.Narrows lax) (entry : Value × Value) :
    (loop.iterate strict entry).Narrows (loop.iterate lax entry) := by
  refine narrows_bind (narrows_refl _) fun n => ?_
  refine narrows_bind (narrows_refl _) fun _ => ?_
  exact narrows_bind (narrows_capture h) fun _ => narrows_refl _

theorem narrows_iterateAll (h : strict.Narrows lax) (entries : List (Value × Value)) :
    (loop.iterateAll strict entries).Narrows (loop.iterateAll lax entries) := by
  induction entries with
  | nil => exact narrows_refl _
  | cons entry rest ih =>
    exact narrows_bind (loop.narrows_iterate h entry) fun _ =>
      narrows_bind ih fun _ => narrows_refl _

/-- A loop over the same entries goes through them alike until its body fails. -/
theorem narrows_run (surroundings : Surroundings) (h : strict.Narrows lax) :
    (loop.run (surroundings.withStrict true) strict).Narrows
      (loop.run (surroundings.withStrict false) lax) := by
  refine narrows_bind (narrows_refl _) fun entries => ?_
  split
  · exact narrows_refl _
  · refine narrows_bind (narrows_refl _) fun earlier => ?_
    exact narrows_bind (loop.narrows_iterateAll h entries) fun _ => narrows_refl _

end Loop

/-! ### Templates -/

namespace Template

variable (surroundings : Surroundings)

theorem narrows_renderAll {parts : List Template}
    (h : ∀ p ∈ parts, (p.render (surroundings.withStrict true)).Narrows
      (p.render (surroundings.withStrict false))) :
    (renderAll (surroundings.withStrict true) parts).Narrows
      (renderAll (surroundings.withStrict false) parts) := by
  induction parts with
  | nil => exact narrows_refl _
  | cons part rest ih =>
    rw [renderAll, renderAll]
    refine narrows_bind (h part List.mem_cons_self) fun _ => ?_
    exact narrows_bind (ih fun p hp => h p (List.mem_cons_of_mem _ hp)) fun _ => narrows_refl _

theorem narrows_renderBranch {branches : List (String × Template)}
    (h : ∀ b ∈ branches, (b.2.render (surroundings.withStrict true)).Narrows
      (b.2.render (surroundings.withStrict false))) :
    (renderBranch (surroundings.withStrict true) branches).Narrows
      (renderBranch (surroundings.withStrict false) branches) := by
  induction branches with
  | nil => exact narrows_refl _
  | cons branch rest ih =>
    obtain ⟨test, body⟩ := branch
    rw [renderBranch, renderBranch]
    refine narrows_bind (narrows_refl _) fun holds => ?_
    cases holds with
    | true => exact narrows_bind (h _ List.mem_cons_self) fun _ => narrows_refl _
    | false => exact ih fun b hb => h b (List.mem_cons_of_mem _ hb)

/-- With strict substitution a template is evaluated as without, until it fails over a substitution
without a value. -/
theorem narrows_render (t : Template) :
    (t.render (surroundings.withStrict true)).Narrows
      (t.render (surroundings.withStrict false)) := by
  induction t using Template.induction with
  | fixed s =>
    rw [render, render]
    exact narrows_refl _
  | text s =>
    rw [render, render]
    exact narrows_bind (narrows_read fun c => c.orUnresolved_substitute surroundings s) fun _ =>
      narrows_refl _
  | sequence parts ih =>
    rw [render, render]
    exact narrows_renderAll surroundings ih
  | guarded test body ih =>
    rw [render, render]
    refine narrows_bind (narrows_refl _) fun holds => ?_
    cases holds with
    | true => exact narrows_bind ih fun _ => narrows_refl _
    | false => exact narrows_refl _
  | choice branches fallback ihb ihf =>
    have hbranches := narrows_renderBranch surroundings ihb
    cases fallback with
    | none =>
      rw [render, render]
      exact narrows_bind hbranches fun _ => narrows_refl _
    | some body =>
      rw [render, render]
      refine narrows_bind hbranches fun taken => ?_
      cases taken with
      | true => exact narrows_refl _
      | false => exact narrows_bind (ihf body rfl) fun _ => narrows_refl _
  | loop attributes body ih =>
    rw [render, render]
    exact attributes.narrows_run surroundings ih
  | trimmed affixes body ih =>
    rw [render, render]
    exact narrows_bind (narrows_capture ih) fun _ => narrows_refl _
  | bind name expression =>
    rw [render, render]
    exact narrows_refl _

end Template

/-! ### Sources -/

namespace Engine

theorem orUnresolved_render (engine : Engine) (template : Template) (parameter : Value)
    (dialect : Option String) :
    OrUnresolved ((engine.withStrict true).render template parameter dialect)
      ((engine.withStrict false).render template parameter dialect) := by
  have hsurroundings (strict : Bool) : (engine.withStrict strict).surroundings parameter =
      (engine.surroundings parameter).withStrict strict :=
    rfl
  rw [render, render, hsurroundings, hsurroundings]
  rcases template.narrows_render (engine.surroundings parameter) (.initial dialect)
    with hsame | ⟨source, hfailed⟩
  · rw [hsame]
    exact .refl _
  · rcases hrun : (template.render ((engine.surroundings parameter).withStrict true)).run
      (.initial dialect) with ⟨result, c⟩
    rw [hrun] at hfailed
    obtain rfl : result = .error (.unresolvedSubstitution source) := hfailed
    exact .inr ⟨source, rfl⟩

/-- What is written at the end does not depend on the option. -/
theorem finish_withStrict (engine : Engine) (strict : Bool) (c : Context) :
    (engine.withStrict strict).finish c = engine.finish c := by
  obtain ⟨⟨_, shrink, _⟩, _, _⟩ := engine
  cases shrink <;> rfl

theorem fixedText_withStrict (engine : Engine) (strict : Bool) (texts : List String) :
    (engine.withStrict strict).fixedText texts = engine.fixedText texts := by
  rw [fixedText, finish_withStrict, fixedText]

end Engine

namespace Source

/-- A template is compiled alike: what is rendered in advance has no substitutions. -/
theorem ofContent_withStrict (engine : Engine) (content : List Markup) (hint : Option String)
    (strict : Bool) : ofContent (engine.withStrict strict) content hint =
      ofContent engine content hint := by
  cases ht : Template.ofContent content with
  | error failure => simp only [ofContent, ht, Bind.bind, Except.bind]
  | ok template =>
    have hsame : ofTemplate (engine.withStrict strict) template (Template.isDynamic content) hint =
        ofTemplate engine template (Template.isDynamic content) hint := by
      cases hdynamic : Template.isDynamic content with
      | true => rw [ofTemplate, if_pos rfl, ofTemplate, if_pos rfl]
      | false =>
        obtain ⟨texts, rfl⟩ := (Template.isDynamic_eq_false_iff ht).1 hdynamic
        rw [ofTemplate_fixed, ofTemplate_fixed, engine.fixedText_withStrict]
        rfl
    rw [ofContent, ofContent, ht]
    exact hsame

theorem orUnresolved_bind (source : Source) (engine : Engine) (parameter : Value)
    (dialect : Option String) :
    OrUnresolved (source.bind (engine.withStrict true) parameter dialect)
      (source.bind (engine.withStrict false) parameter dialect) := by
  cases source with
  | fixed text sql mappings => exact .refl _
  | live template hint =>
    exact (engine.orUnresolved_render template parameter dialect).bind fun _ => .refl _

/-- Strict substitution changes nothing but that more is rejected. Templates are compiled alike with
it and without. What is bound with it is bound without it as the same SQL, and a failure with it is
one without it as well, or tells of a substitution without a value. -/
theorem strict_only_rejects (engine : Engine) (hint dialect : Option String) (parameter : Value) :
    (∀ content, ofContent (engine.withStrict true) content hint =
      ofContent (engine.withStrict false) content hint) ∧
    ∀ source : Source,
      (∀ bound, source.bind (engine.withStrict true) parameter dialect = .ok bound →
        source.bind (engine.withStrict false) parameter dialect = .ok bound) ∧
      ∀ failure, source.bind (engine.withStrict true) parameter dialect = .error failure →
        source.bind (engine.withStrict false) parameter dialect = .error failure ∨
          ∃ expression, failure = .unresolvedSubstitution expression := by
  refine ⟨fun content => ?_, fun source => ?_⟩
  · rw [ofContent_withStrict, ofContent_withStrict]
  · rcases source.orUnresolved_bind engine parameter dialect with hsame | ⟨expression, hfailed⟩
    · exact ⟨fun bound h => hsame.symm.trans h, fun failure h => .inl (hsame.symm.trans h)⟩
    · refine ⟨fun bound h => (nomatch hfailed.symm.trans h), fun failure h => .inr ⟨expression, ?_⟩⟩
      exact Except.error.inj (h.symm.trans hfailed)

set_option maxRecDepth 20000 in
/-- A column that is given, and one that is not. -/
theorem strict_only_rejects_column :
    let engine : Engine := { access := .strict }
    let source : Source := .live (.text "select ${b}") none
    (∃ bound, source.bind (engine.withStrict false) (.object [("b", .string "id")]) none =
      .ok bound ∧ bound.sql = "select id") ∧
    (∃ bound, source.bind (engine.withStrict false) (.object []) none = .ok bound ∧
      bound.sql = "select") ∧
    ∃ expression, source.bind (engine.withStrict true) (.object []) none =
      .error (.unresolvedSubstitution expression) := by
  intro engine source
  have hgiven : source.bind (engine.withStrict true) (.object [("b", .string "id")]) none =
      .ok { sql := "select id", mappings := [], parameter := .object [("b", .string "id")],
            additional := [(dialectName, .null)] } := by
    cbv
  have hlax : source.bind (engine.withStrict false) (.object []) none =
      .ok { sql := "select", mappings := [], parameter := .object [],
            additional := [(dialectName, .null)] } := by
    cbv
  have hmissing : source.bind (engine.withStrict true) (.object []) none =
      .error (.unresolvedSubstitution "b") := by
    cbv
  refine ⟨⟨_, ((strict_only_rejects engine none none _).2 source).1 _ hgiven, rfl⟩,
    ⟨_, hlax, rfl⟩, ?_⟩
  rcases ((strict_only_rejects engine none none _).2 source).2 _ hmissing with h | ⟨_, h⟩
  · rw [hlax] at h
    cases h
  · exact ⟨_, hmissing.trans (congrArg _ h)⟩

end Source

end SqlTemplate
