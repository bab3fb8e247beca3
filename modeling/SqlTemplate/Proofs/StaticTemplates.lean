import Mathlib
import SqlTemplate.Proofs.Joining
import SqlTemplate.Proofs.Outcome
import SqlTemplate.Statement.Source

/-!
# Static templates

Content is static where it has no element and no substitution. Its template is a sequence of fixed
texts, and no other template is one. What such a sequence writes does not depend on the parameter,
on the dialect or on anything else that evaluations are surrounded by, so that it may be rendered
and bound once and for all: each later rendering would come to the same text, the same SQL and the
same mappings, or to the same failure.

## Main definitions

* `Template.fixedText`, `Engine.fixedText` : the text that fixed texts come to.

## Main results

* `Template.isDynamic_eq_false_iff` : the templates of static content.
* `Engine.render_fixed` : what rendering a sequence of fixed texts gives.
* `Source.ofTemplate_fixed`, `Source.bind_live_fixed` : the source of fixed texts, and what they are
  bound to where they are rendered.
* `Source.static_rendered_alike` : static sources against rendering for each parameter.
-/

namespace SqlTemplate

namespace Template

/-! ### The templates of static content -/

theorem isDynamic_cons (m : Markup) (rest : List Markup) :
    isDynamic (m :: rest) = (isDynamic [m] || isDynamic rest) := by
  simp [isDynamic]

/-- A piece of content is static exactly if its node is a fixed text. -/
theorem isDynamic_singleton_eq_false_iff {m : Markup} {node : Template}
    (h : compile m = .ok node) : isDynamic [m] = false ↔ ∃ s, node = .fixed s := by
  cases m with
  | text s =>
    rw [compile] at h
    obtain rfl := Except.ok.inj h
    cases hs : Marker.substitution.occursIn s <;> simp [isDynamic, ofText, hs]
  | element name attributes children =>
    -- an element is dynamic, and none of the directives makes a fixed text
    have hdynamic : isDynamic [.element name attributes children] ≠ false := by
      simp [isDynamic]
    refine ⟨fun hstatic => absurd hstatic hdynamic, ?_⟩
    rintro ⟨s, rfl⟩
    rw [compile] at h
    split at h
    case h_1 => cases h
    case h_5 =>
      obtain ⟨loop, -, h⟩ := exists_of_bind_eq_ok h
      obtain ⟨parts, -, h⟩ := exists_of_bind_eq_ok h
      cases h
    case h_6 | h_7 | h_10 =>
      obtain ⟨first, -, h⟩ := exists_of_bind_eq_ok h
      obtain ⟨second, -, h⟩ := exists_of_bind_eq_ok h
      cases h
    all_goals
      obtain ⟨parts, -, h⟩ := exists_of_bind_eq_ok h
      cases h

/-- A list of content is static exactly if its nodes are fixed texts. -/
theorem isDynamic_eq_false_iff_nodes {content : List Markup} {parts : List Template}
    (h : compileAll content = .ok parts) :
    isDynamic content = false ↔ ∃ texts : List String, parts = texts.map .fixed := by
  induction content generalizing parts with
  | nil =>
    rw [compileAll] at h
    obtain rfl := Except.ok.inj h
    exact ⟨fun _ => ⟨[], rfl⟩, fun _ => rfl⟩
  | cons m rest ih =>
    rw [compileAll] at h
    obtain ⟨node, hnode, h⟩ := exists_of_bind_eq_ok h
    obtain ⟨others, hothers, h⟩ := exists_of_bind_eq_ok h
    obtain rfl := Except.ok.inj h
    rw [isDynamic_cons, Bool.or_eq_false_iff, isDynamic_singleton_eq_false_iff hnode, ih hothers]
    constructor
    · rintro ⟨⟨s, rfl⟩, ⟨texts, rfl⟩⟩
      exact ⟨s :: texts, rfl⟩
    · rintro ⟨texts, htexts⟩
      cases texts with
      | nil => cases htexts
      | cons s texts => exact ⟨⟨s, (List.cons.inj htexts).1⟩, texts, (List.cons.inj htexts).2⟩

/-- Content is static exactly if its template is a sequence of fixed texts. -/
theorem isDynamic_eq_false_iff {content : List Markup} {t : Template}
    (h : ofContent content = .ok t) :
    isDynamic content = false ↔ ∃ texts : List String, t = .sequence (texts.map .fixed) := by
  rw [ofContent] at h
  cases hall : compileAll content with
  | error failure =>
    rw [hall] at h
    cases h
  | ok parts =>
    rw [hall] at h
    obtain rfl := Except.ok.inj h
    simp only [isDynamic_eq_false_iff_nodes hall, Template.sequence.injEq]

/-! ### Rendering fixed texts -/

/-- The text that fixed texts come to, each joined to what comes after it. -/
def fixedText (texts : List String) : List Char :=
  texts.foldr (fun s rest => Context.join s.toList rest) []

/-- A sequence of fixed texts writes them, and that is all. -/
theorem exists_gives_render_fixed (surroundings : Surroundings) (texts : List String)
    (c : Context) : ∃ produced,
      ((Template.sequence (texts.map .fixed)).render surroundings).Gives c produced
        { c with sql := .ofList (Context.join c.sql.toList (fixedText texts)) } := by
  induction texts generalizing c with
  | nil =>
    refine ⟨false, ?_⟩
    rw [render, List.map_nil, renderAll, Evaluation.gives_pure]
    exact ⟨rfl, (c.write_empty).symm⟩
  | cons s texts ih =>
    obtain ⟨produced, hrest⟩ := ih (c.write s)
    rw [Context.toList_write_sql, Context.join_assoc] at hrest
    refine ⟨true || produced, ?_⟩
    rw [render] at hrest
    rw [render, List.map_cons, renderAll, Evaluation.gives_bind]
    refine ⟨true, c.write s, ?_, Evaluation.gives_bind.2 ⟨produced, _, hrest, ?_⟩⟩
    · rw [render, Evaluation.gives_bind]
      exact ⟨⟨⟩, _, Evaluation.gives_write.2 rfl, Evaluation.gives_pure.2 ⟨rfl, rfl⟩⟩
    · exact Evaluation.gives_pure.2 ⟨rfl, rfl⟩

end Template

namespace Engine

/-- The text that fixed texts come to, as the engine writes it. -/
def fixedText (engine : Engine) (texts : List String) : String :=
  (engine.finish { sql := .ofList (Template.fixedText texts) }).1

/-- Rendering a sequence of fixed texts gives one text whatever the parameter and the dialect, and
binds the dialect alone. -/
theorem render_fixed (engine : Engine) (texts : List String) (parameter : Value)
    (dialect : Option String) :
    engine.render (.sequence (texts.map .fixed)) parameter dialect =
      .ok (engine.fixedText texts, [(dialectName, .ofString? dialect)]) := by
  obtain ⟨produced, h⟩ := Template.exists_gives_render_fixed (engine.surroundings parameter) texts
    (.initial dialect)
  have hsql : (Context.initial dialect).sql.toList = [] :=
    String.toList_empty
  rw [hsql, Context.nil_join] at h
  rw [render, h]
  rfl

end Engine

namespace Source

/-- The source that is made of fixed texts holds what they are bound to. -/
theorem ofTemplate_fixed (engine : Engine) (texts : List String) (hint : Option String) :
    ofTemplate engine (.sequence (texts.map .fixed)) false hint =
      (bindPlaceholders engine.placeholder hint (engine.fixedText texts)).map fun bound =>
        .fixed (engine.fixedText texts) bound.1 bound.2 := by
  rw [ofTemplate, engine.render_fixed]
  change (bindPlaceholders engine.placeholder hint (engine.fixedText texts) >>= fun bound =>
    Except.ok (fixed (engine.fixedText texts) bound.1 bound.2)) = _
  cases bindPlaceholders engine.placeholder hint (engine.fixedText texts) <;> rfl

/-- Fixed texts that are rendered for a parameter and a dialect are bound to the same. -/
theorem bind_live_fixed (engine : Engine) (texts : List String) (hint : Option String)
    (parameter : Value) (dialect : Option String) :
    (Source.live (.sequence (texts.map .fixed)) hint).bind engine parameter dialect =
      (bindPlaceholders engine.placeholder hint (engine.fixedText texts)).map fun bound =>
        { sql := bound.1, mappings := bound.2, parameter,
          additional := [(dialectName, .ofString? dialect)] } := by
  rw [bind, engine.render_fixed]
  change (bindPlaceholders engine.placeholder hint (engine.fixedText texts) >>= fun bound =>
    Except.ok (BoundSql.mk bound.1 bound.2 parameter [(dialectName, .ofString? dialect)])) = _
  cases bindPlaceholders engine.placeholder hint (engine.fixedText texts) <;> rfl

/-- **Static sources.** Where content has a template, it is static exactly if the template is a
sequence of fixed texts. Where it is static and a source is made of the template, the source holds
a text, its SQL and its mappings, and rendering the template for any parameter and dialect gives
this text, which is bound to this SQL and these mappings. Where no source can be made, binding the
template for any parameter and dialect fails as well, and with the same failure. -/
theorem static_rendered_alike {content : List Markup} {t : Template}
    (ht : Template.ofContent content = .ok t) :
    (Template.isDynamic content = false ↔
      ∃ texts : List String, t = .sequence (texts.map .fixed)) ∧
    (Template.isDynamic content = false → ∀ (engine : Engine) (hint : Option String),
      (∀ source, ofTemplate engine t (Template.isDynamic content) hint = .ok source →
        ∃ text sql mappings, source = .fixed text sql mappings ∧
          ∀ parameter dialect, ∃ additional,
            engine.render t parameter dialect = .ok (text, additional) ∧
            (Source.live t hint).bind engine parameter dialect =
              .ok { sql, mappings, parameter, additional }) ∧
      ∀ failure, ofTemplate engine t (Template.isDynamic content) hint = .error failure →
        ∀ parameter dialect,
          (Source.live t hint).bind engine parameter dialect = .error failure) := by
  have hiff := Template.isDynamic_eq_false_iff ht
  refine ⟨hiff, fun hstatic engine hint => ?_⟩
  obtain ⟨texts, rfl⟩ := hiff.1 hstatic
  simp only [hstatic, ofTemplate_fixed, bind_live_fixed, engine.render_fixed]
  cases bindPlaceholders engine.placeholder hint (engine.fixedText texts) with
  | error fault =>
    refine ⟨fun source h => (nomatch h), fun failure h parameter dialect => ?_⟩
    rw [← Except.error.inj h]
    rfl
  | ok bound =>
    refine ⟨fun source h => ?_, fun failure h => (nomatch h)⟩
    exact ⟨engine.fixedText texts, bound.1, bound.2, (Except.ok.inj h).symm,
      fun parameter dialect => ⟨_, rfl, rfl⟩⟩

/-- A query with a parameter, and one whose placeholder names none. -/
theorem static_rendered_alike_select :
    let query : List Markup := [.text "select * from t ", .text "where id = #{id}"]
    let blank : List Markup := [.text "select #{ }"]
    (∃ t, Template.ofContent query = .ok t ∧ ∀ parameter dialect, ∃ additional,
      (Source.live t none).bind {} parameter dialect =
        .ok { sql := "select * from t where id = ?", mappings := [{ property := "id" }],
              parameter, additional }) ∧
    ∃ t, Template.ofContent blank = .ok t ∧ ∀ parameter dialect,
      (Source.live t none).bind {} parameter dialect =
        .error (.mapping " " .missingProperty) := by
  intro query blank
  have hquery : Template.ofContent query =
      .ok (.sequence [.fixed "select * from t ", .fixed "where id = #{id}"]) := by
    cbv
  have hblank : Template.ofContent blank = .ok (.sequence [.fixed "select #{ }"]) := by
    cbv
  have hmade : ofTemplate {} (.sequence [.fixed "select * from t ", .fixed "where id = #{id}"])
      (Template.isDynamic query) none = .ok (.fixed "select * from t where id = #{id}"
        "select * from t where id = ?" [{ property := "id" }]) := by
    cbv
  have hfailed : ofTemplate {} (.sequence [.fixed "select #{ }"]) (Template.isDynamic blank) none =
      .error (.mapping " " .missingProperty) := by
    cbv
  refine ⟨⟨_, hquery, fun parameter dialect => ?_⟩, _, hblank, ?_⟩
  · obtain ⟨text, sql, mappings, hsource, hall⟩ :=
      ((static_rendered_alike hquery).2 (by decide +kernel) {} none).1 _ hmade
    obtain ⟨-, rfl, rfl⟩ := Source.fixed.inj hsource
    obtain ⟨additional, -, hbind⟩ := hall parameter dialect
    exact ⟨additional, hbind⟩
  · exact ((static_rendered_alike hblank).2 (by decide +kernel) {} none).2 _ hfailed

end Source

end SqlTemplate
