import Mathlib
import SqlTemplate.Proofs.Placeholders
import SqlTemplate.Proofs.StaticTemplates

/-!
# What a name reads as

A substitution looks a name up while the template is evaluated: among the bindings, then as the
name of the parameter, then among the attributes of the parameter. A placeholder is resolved when
the evaluation is over, from the bindings that it left behind, and else from the parameter. Both
find the same value, unless the name is one that placeholders overlook: the name of the parameter
is not among the bindings, and a source that is not rendered again binds no dialect. The
placeholders of a text have values all at once, or none of them has.

## Main definitions

* `Access.fromParameter` : what a placeholder reads where nothing is bound.
* `Source.Overlooks` : the names that substitutions find and placeholders do not.

## Main results

* `BoundSql.value?_of_isRoot` : the value of a property that is a name alone.
* `Source.exists_gives_of_ofContent` : the evaluation that the bindings of any source are from.
* `Source.placeholders_read_names` : placeholders against look-up at the end of the evaluation.
-/

namespace SqlTemplate

open Text

/-! ### Names alone -/

theorem PropertyPath.steps_of_isRoot {w : List Char} (hw : IsRoot w) :
    steps (.ofList w) = [.name (.ofList w)] := by
  have hcut (c : Char) (hc : endsRoot [c] = true) : ∀ d ∈ w, d ≠ c := by
    rintro d hd rfl
    rw [hw.continues d hd] at hc
    cases hc
  have hpart : w.splitOn '.' = [w] :=
    List.splitOn_eq_singleton fun hmem => hcut '.' rfl _ hmem rfl
  have htrim : trim w = w := by
    have h := hw.trim_append []
    rwa [List.append_nil, show trimEnd [] = [] from rfl, List.append_nil] at h
  have hbracket : ∀ d ∈ w, (d != '[') = true := fun d hd => bne_iff_ne.2 (hcut '[' rfl d hd)
  have htake : w.takeWhile (· != '[') = w := List.takeWhile_eq_self_iff.2 hbracket
  have hdrop : w.dropWhile (· != '[') = [] := List.dropWhile_eq_nil_iff.2 hbracket
  rw [steps, String.toList_ofList, hpart, List.flatMap_cons, List.flatMap_nil, List.append_nil,
    partSteps, htrim]
  simp only [htake, hdrop, List.isEmpty_eq_false_iff.2 hw.ne_nil, brackets]
  rfl

/-- Whether a value is an object or a list. -/
def Value.isContainer : Value → Bool
  | .object _ | .array _ => true
  | _ => false

theorem Value.isNull_iff {v : Value} : v.isNull = true ↔ v = .null := by
  cases v <;> simp [isNull]

/-- What a placeholder with a name alone reads from the parameter: the attribute of an object or a
list, null where there is none, and any other parameter itself. -/
def Access.fromParameter (access : Access) (parameter : Value) (name : String) : Value :=
  if parameter.isContainer then (access.get? parameter name).getD .null else parameter

/-- Only objects and lists have attributes under the policies that come with the library. -/
theorem Access.get?_of_isContainer_eq_false {access : Access}
    (haccess : access = .lenient ∨ access = .strict) {v : Value} (hv : v.isContainer = false)
    (name : String) : access.get? v name = none := by
  cases v with
  | object fields => cases hv
  | array items => cases hv
  | null | bool | number | string => rcases haccess with rfl | rfl <;> rfl

/-- A property that is a name alone has the value that the name is bound to, else what it reads
from the parameter. -/
theorem BoundSql.value?_of_isRoot (b : BoundSql) {x : String} (hx : IsRoot x.toList)
    (access : Access) :
    b.value? access x =
      some ((b.additional.find? x).getD (access.fromParameter b.parameter x)) := by
  have hsteps : PropertyPath.steps x = [.name x] := by
    simpa using PropertyPath.steps_of_isRoot hx
  cases hv : b.additional.find? x with
  | some v =>
    have hvalue : b.value? access (.ofList (x.toList ++ pathFrom [])) =
        some ((access.resolve? v (.ofList (pathFrom []))).getD .null) :=
      value?_root_append hx rfl hv access
    rw [pathFrom_nil, List.append_nil, String.ofList_toList, Access.resolve?_nil] at hvalue
    exact hvalue
  | none =>
    have hroot : root x = x := root_of_steps hsteps
    rw [value?_of_not_bound (by rwa [hroot]), parameterValue]
    cases b.parameter <;>
      simp [Access.fromParameter, Value.isContainer, Access.resolve?, hsteps, Step.key,
        Access.follow?]

/-! ### Bindings of static and of live sources -/

namespace Source

variable {engine : Engine} {content : List Markup} {hint dialect : Option String} {source : Source}
  {parameter : Value} {b : BoundSql}

theorem parameter_of_bind (h : source.bind engine parameter dialect = .ok b) :
    b.parameter = parameter := by
  cases source with
  | fixed text sql mappings => rw [← Except.ok.inj h]
  | live t hint =>
    obtain ⟨rendered, -, h⟩ := exists_of_bind_eq_ok h
    obtain ⟨bound, -, h⟩ := exists_of_bind_eq_ok h
    rw [← Except.ok.inj h]

/-- What a source of content is bound to comes from the text that an evaluation for the parameter
and the dialect writes. The bindings are those of this evaluation where the source is rendered for
each parameter; where it is not, the evaluation binds the dialect alone, and the source nothing. -/
theorem exists_gives_of_ofContent (hsource : ofContent engine content hint = .ok source)
    (h : source.bind engine parameter dialect = .ok b) :
    ∃ t produced c', Template.ofContent content = .ok t ∧
      (t.render (engine.surroundings parameter)).Gives (.initial dialect) produced c' ∧
      source.render engine parameter dialect = .ok ((engine.finish c').1, b.additional) ∧
      bindPlaceholders engine.placeholder hint (engine.finish c').1 = .ok (b.sql, b.mappings) ∧
      (source.isDynamic = true ∧ b.additional = c'.bindings ∨
        source.isDynamic = false ∧ b.additional = [] ∧
          c'.bindings = [(dialectName, .ofString? dialect)]) := by
  obtain ⟨t, ht, hsource⟩ := exists_of_bind_eq_ok hsource
  cases hdynamic : Template.isDynamic content with
  | true =>
    rw [hdynamic] at hsource
    obtain rfl : live t hint = source := Except.ok.inj hsource
    obtain ⟨produced, c', hgives, hadditional, hbind⟩ := exists_gives_of_bind h
    refine ⟨t, produced, c', ht, hgives, ?_, hbind, Or.inl ⟨rfl, hadditional⟩⟩
    rw [hadditional]
    exact Engine.render_eq_ok_iff.2 ⟨produced, c', hgives, rfl⟩
  | false =>
    obtain ⟨texts, rfl⟩ := (Template.isDynamic_eq_false_iff ht).1 hdynamic
    rw [hdynamic, ofTemplate_fixed] at hsource
    obtain ⟨produced, hgives⟩ := Template.exists_gives_render_fixed
      (engine.surroundings parameter) texts (.initial dialect)
    have hsql : (Context.initial dialect).sql.toList = [] :=
      String.toList_empty
    rw [hsql, Context.nil_join] at hgives
    cases hbound : bindPlaceholders engine.placeholder hint (engine.fixedText texts) with
    | error failure =>
      rw [hbound] at hsource
      cases hsource
    | ok bound =>
      rw [hbound] at hsource
      obtain rfl := Except.ok.inj hsource
      obtain rfl := Except.ok.inj h
      exact ⟨_, produced, _, ht, hgives, rfl, hbound, Or.inr ⟨rfl, rfl, rfl⟩⟩

/-- The names whose value substitutions find in the state `c` and placeholders overlook: the name
of a parameter with attributes, the name of the dialect in a source that is not rendered for each
parameter, and the attributes that a policy gives to a parameter that is no object and no list. -/
inductive Overlooks (source : Source) (access : Access) (parameter : Value) (c : Context)
    (x : String) : Prop where
  | parameter (hx : x = parameterName) (hfree : c.bindings.find? x = none)
      (hcontainer : parameter.isContainer = true)
  | dialect (hx : x = dialectName) (hfixed : source.isDynamic = false)
  | field (hx : x ≠ parameterName) (hfree : c.bindings.find? x = none)
      (hnull : parameter.isNull = false) (hcontainer : parameter.isContainer = false)
      (hget : access.get? parameter x ≠ none)

/-- Under the policies that come with the library no more than the two names kept for the parameter
and for the dialect are overlooked. -/
theorem Overlooks.eq_or_eq {c : Context} {access : Access} {x : String}
    (h : source.Overlooks access parameter c x)
    (haccess : access = .lenient ∨ access = .strict) : x = parameterName ∨ x = dialectName := by
  cases h with
  | parameter hx => exact Or.inl hx
  | dialect hx => exact Or.inr hx
  | field _ _ _ hcontainer hget =>
    exact absurd (Access.get?_of_isContainer_eq_false haccess hcontainer x) hget

/-- A name that is found, and that nothing is bound to, reads from the parameter as the same value
unless it is overlooked. -/
theorem fromParameter_of_lookup? {surroundings : Surroundings} {c : Context} {x : String}
    {v : Value} (hlookup : c.lookup? surroundings x = some v) (hfree : c.bindings.find? x = none)
    (hseen : ¬ source.Overlooks surroundings.access surroundings.parameter c x) :
    surroundings.access.fromParameter surroundings.parameter x = v := by
  simp only [Context.lookup?, hfree] at hlookup
  by_cases hx : x = parameterName
  · rw [if_pos hx] at hlookup
    have hscalar : surroundings.parameter.isContainer ≠ true :=
      fun hcontainer => hseen (.parameter hx hfree hcontainer)
    rw [Access.fromParameter, if_neg hscalar, Option.some.inj hlookup]
  · rw [if_neg hx] at hlookup
    cases hcontainer : surroundings.parameter.isContainer with
    | true =>
      have hnull : surroundings.parameter.isNull ≠ true := by
        intro hnull
        rw [Value.isNull_iff.1 hnull] at hcontainer
        cases hcontainer
      rw [if_neg hnull] at hlookup
      rw [Access.fromParameter, if_pos hcontainer, hlookup, Option.getD_some]
    | false =>
      rw [Access.fromParameter, if_neg (by rw [hcontainer]; exact Bool.false_ne_true)]
      cases hnull : surroundings.parameter.isNull with
      | true =>
        simp only [hnull, if_true] at hlookup
        rw [Value.isNull_iff.1 hnull, Option.some.inj hlookup]
      | false =>
        simp only [hnull, Bool.false_eq_true, if_false] at hlookup
        refine absurd (Overlooks.field hx hfree hnull hcontainer ?_) hseen
        rw [hlookup]
        exact Option.some_ne_none v

/-- **Placeholders and look-up.** Where the source of some content is bound for a parameter and a
dialect, there are values unless one of the properties is cut within a character. Where there are,
take the state at the end of an evaluation of the template for them, and a name that look-up finds
in this state. Each placeholder with this name alone, whatever its type and attributes, has the
value that is found, unless the name is overlooked; then it has what the name reads from the
parameter. Under the policies that come with the library no more than the names kept for the
parameter and for the dialect are overlooked. -/
theorem placeholders_read_names (hsource : ofContent engine content hint = .ok source)
    (h : source.bind engine parameter dialect = .ok b) :
    ∃ t produced c' text, Template.ofContent content = .ok t ∧
      (t.render (engine.surroundings parameter)).Gives (.initial dialect) produced c' ∧
      source.render engine parameter dialect = .ok (text, b.additional) ∧
      bindPlaceholders engine.placeholder hint text = .ok (b.sql, b.mappings) ∧
      (b.values? engine.access = none ↔ ∃ m ∈ b.mappings, b.Unreadable m.property) ∧
      ∀ (vs : List Value) (x : String) (rest : List Char) (v : Value) (k : Nat),
        b.values? engine.access = some vs → IsRoot x.toList → pathFrom rest = [] →
        c'.lookup? (engine.surroundings parameter) x = some v →
        (Marker.placeholder.bodies text)[k]? = some (.ofList (x.toList ++ rest)) →
        (¬ source.Overlooks engine.access parameter c' x → vs[k]? = some v) ∧
        (source.Overlooks engine.access parameter c' x →
          vs[k]? = some (engine.access.fromParameter parameter x) ∧
            (engine.access = .lenient ∨ engine.access = .strict →
              x = parameterName ∨ x = dialectName)) := by
  obtain ⟨t, produced, c', ht, hgives, hrender, hbind, hadditional⟩ :=
    exists_gives_of_ofContent hsource h
  refine ⟨t, produced, c', _, ht, hgives, hrender, hbind,
    BoundSql.values?_eq_none_iff_unreadable hbind, fun vs x rest v k hvs hx hrest hv hk => ?_⟩
  have hvalue : vs[k]? =
      some ((b.additional.find? x).getD (engine.access.fromParameter parameter x)) := by
    rw [BoundSql.getElem?_of_values? hbind hx hvs hk, hrest, List.append_nil,
      String.ofList_toList, b.value?_of_isRoot hx, parameter_of_bind h]
  rw [hvalue]
  constructor
  · intro hseen
    rcases hadditional with ⟨-, hlive⟩ | ⟨hfixed, hnone, hdialect⟩
    · rw [hlive]
      cases hbound : c'.bindings.find? x with
      | some bound =>
        simp only [Context.lookup?, hbound] at hv
        rw [Option.getD_some, hv]
      | none => exact congrArg some (fromParameter_of_lookup? hv hbound hseen)
    · -- where nothing is evaluated again, the dialect is the one name that was bound
      have hne : dialectName ≠ x := fun hx => hseen (.dialect hx.symm hfixed)
      have hfree : c'.bindings.find? x = none := by
        rw [hdialect, Entries.find?, if_neg hne, Entries.find?_nil]
      rw [hnone, Entries.find?_nil, Option.getD_none]
      exact congrArg some (fromParameter_of_lookup? hv hfree hseen)
  · intro hoverlooked
    refine ⟨?_, hoverlooked.eq_or_eq⟩
    have hfree : b.additional.find? x = none := by
      rcases hadditional with ⟨hlive, hsame⟩ | ⟨-, hnone, -⟩
      · rw [hsame]
        cases hoverlooked with
        | parameter _ hfree => exact hfree
        | dialect _ hfixed =>
          rw [hlive] at hfixed
          cases hfixed
        | field _ hfree => exact hfree
      · rw [hnone, Entries.find?_nil]
    rw [hfree, Option.getD_none]

/-- Placeholders with a name that is bound, with the name of an attribute and with the names kept
for the dialect and for the parameter. -/
def naming.text : String :=
  "#{y} #{id} #{_databaseId} #{_parameter}"

/-- Content that binds a name to the attribute. -/
def naming : List Markup :=
  [.element "bind" [("name", "y"), ("value", "id")] [], .text naming.text]

namespace naming

/-- The template of the content. -/
def template : Template :=
  .sequence [.bind "y" "id", .fixed text]

/-- A parameter with the attribute. -/
def row : Value :=
  .object [("id", .bool true)]

def names : List String :=
  ["y", "id", dialectName, parameterName]

/-- What the evaluation leaves behind. -/
def last : Context where
  bindings := [(dialectName, .string "h2"), ("y", .bool true)]
  sql := text

theorem ofContent_eq : Template.ofContent naming = .ok template := by
  cbv

theorem source_eq : ofContent {} naming none = .ok (live template none) := by
  rw [ofContent, ofContent_eq]
  rfl

set_option maxRecDepth 20000 in
theorem gives_run : (template.render (Engine.surroundings {} row)).Gives
    (.initial (some "h2")) true last := by
  cbv

theorem render_eq : Engine.render {} template row (some "h2") = .ok (text, last.bindings) := by
  have htrimmed : trimmed text = text := by
    decide +kernel
  exact Engine.render_eq_ok_iff.2 ⟨true, last, gives_run, congrArg (·, last.bindings) htrimmed⟩

/-- What the source is bound to. -/
def bound : BoundSql where
  sql := "? ? ? ?"
  mappings := names.map fun x => { property := x }
  parameter := row
  additional := last.bindings

theorem bind_eq : (live template none).bind {} row (some "h2") = .ok bound := by
  rw [bind, render_eq]
  cbv

theorem getElem?_bodies {x : String} {k : Nat} (hk : names[k]? = some x) :
    (Marker.placeholder.bodies text)[k]? = some (.ofList (x.toList ++ [])) := by
  have hbodies : Marker.placeholder.bodies text = names := by
    decide +kernel
  rw [hbodies, hk, List.append_nil, String.ofList_toList]

theorem isRoot_of_mem : ∀ x ∈ names, IsRoot x.toList := by
  decide +kernel

theorem not_overlooks {x : String} (hx : x ≠ parameterName) :
    ¬ (live template none).Overlooks .lenient row last x := by
  intro h
  cases h with
  | parameter hname => exact hx hname
  | dialect _ hfixed => cases hfixed
  | field _ _ _ hcontainer => cases hcontainer

end naming

open naming in
/-- The binding, the attribute and the dialect are read as they are found, and the parameter as one
of its own attributes. -/
theorem placeholders_read_names_naming :
    ∃ source b vs, ofContent {} naming none = .ok source ∧
      source.bind {} row (some "h2") = .ok b ∧ b.values? .lenient = some vs ∧
      vs[0]? = some (.bool true) ∧ vs[1]? = some (.bool true) ∧
      vs[2]? = some (.string "h2") ∧ vs[3]? = some .null := by
  have hvalues : bound.values? .lenient =
      some [.bool true, .bool true, .string "h2", .null] := by
    cbv
  obtain ⟨t, produced, c', written, ht, hgives, hrender, -, -, hread⟩ :=
    placeholders_read_names source_eq bind_eq
  obtain rfl : template = t := Except.ok.inj (ofContent_eq.symm.trans ht)
  obtain ⟨-, rfl⟩ := gives_run.unique hgives
  obtain rfl : text = written := congrArg Prod.fst (Except.ok.inj (render_eq.symm.trans hrender))
  have hname {x : String} {k : Nat} (v : Value) (hk : names[k]? = some x)
      (hv : last.lookup? (Engine.surroundings {} row) x = some v) :=
    hread _ x [] v k hvalues (isRoot_of_mem x (List.mem_of_getElem? hk)) rfl hv (getElem?_bodies hk)
  refine ⟨_, bound, _, source_eq, bind_eq, hvalues, ?_, ?_, ?_, ?_⟩
  · exact (hname (x := "y") _ rfl rfl).1 (not_overlooks (by decide))
  · exact (hname (x := "id") _ rfl rfl).1 (not_overlooks (by decide))
  · exact (hname (x := dialectName) _ rfl rfl).1 (not_overlooks (by decide))
  · exact ((hname (x := parameterName) _ rfl rfl).2 (.parameter rfl rfl rfl)).1

/-- At the end of an evaluation an object is found under the name of the parameter, and the dialect
under its name; the placeholders with these names are null in a query that is not rendered for each
parameter. -/
theorem reserved_names_overlooked :
    let text := "#{_parameter} #{_databaseId}"
    let mappings : List Mapping := [{ property := parameterName }, { property := dialectName }]
    let parameter : Value := .object [("id", .ofInt 7)]
    let surroundings : Surroundings := Engine.surroundings {} parameter
    let last : Context := { bindings := [(dialectName, .string "mysql")], sql := text }
    Template.ofContent [.text text] = .ok (.sequence [.fixed text]) ∧
      ((Template.sequence [.fixed text]).render surroundings).Gives (.initial (some "mysql")) true
        last ∧
      last.lookup? surroundings parameterName = some parameter ∧
      last.lookup? surroundings dialectName = some (.string "mysql") ∧
      ofContent {} [.text text] none = .ok (.fixed text "? ?" mappings) ∧
      (fixed text "? ?" mappings).bind {} parameter (some "mysql") =
        .ok { sql := "? ?", mappings, parameter } ∧
      ({ sql := "? ?", mappings, parameter } : BoundSql).values? .lenient =
        some [.null, .null] := by
  refine ⟨?_, ?_, ?_, ?_, ?_, ?_, ?_⟩ <;> cbv

end Source

end SqlTemplate
