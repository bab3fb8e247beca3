import Mathlib
import SqlTemplate.Proofs.BlankRuns
import SqlTemplate.Proofs.Placeholders
import SqlTemplate.Statement.Source

/-!
# Shrinking blank runs

An engine may be told to write each blank run of its SQL as one space. It does so before the markers
are looked for, so that what it does affects the bodies of placeholders as well. The mappings that
these say are the same but for the blank runs in their texts: the names of attributes, modes, types
and numbers have no blanks within them, and where a body has one there it says no mapping either
way.

## Main definitions

* `Engine.withShrink` : the engine that shrinks blank runs, or does not.
* `Mapping.collapsed`, `BoundSql.collapsed` : mappings and bound SQL with blank runs collapsed.
* `Shrinks` : two results that differ in blank runs.

## Main results

* `Mapping.toOption_parse_squeeze` : the mappings of bodies.
* `toOption_bindPlaceholders_collapsed` : the placeholders of a text.
* `Source.shrinking_commutes` : shrinking before placeholders are bound or afterwards.
-/

namespace SqlTemplate

open Text

namespace Text

/-- A string with its blank runs written as single spaces, and without blanks at its ends. -/
def collapsed (s : String) : String :=
  mapChars collapse s

variable {s : List Char}

theorem trim_squeeze_eq (s : List Char) : trim (squeeze s) = collapse s := by
  rw [trim_squeeze, collapse_eq]

theorem collapse_trim (s : List Char) : collapse (trim s) = collapse s := by
  rw [collapse_eq, trim_trim, collapse_eq]

theorem collapsed_ofList_trim (s : List Char) :
    collapsed (.ofList (trim s)) = .ofList (collapse s) := by
  rw [collapsed, mapChars, String.toList_ofList, collapse_trim]

theorem collapse_of_forall (h : ∀ c ∈ s, isBlank c = false) : collapse s = s := by
  rw [collapse_eq, trim_of_forall h, squeeze_of_forall h]

/-- Either collapsing only trims a text, or there are blanks within it, before and after. -/
theorem collapse_cases (s : List Char) : collapse s = trim s ∨
    (∃ c ∈ trim s, isBlank c = true) ∧ ∃ c ∈ collapse s, isBlank c = true := by
  rw [collapse_eq]
  by_cases h : ∃ c ∈ trim s, isBlank c = true
  · exact .inr ⟨h, exists_blank_of_squeeze h⟩
  · refine .inl (squeeze_of_forall fun c hc => ?_)
    rw [← Bool.not_eq_true]
    exact fun hblank => h ⟨c, hc, hblank⟩

end Text

/-! ### Texts without blanks -/

/-- A blank has no other case. -/
theorem toUpper_of_isBlank {c : Char} (hc : isBlank c = true) : c.toUpper = c := by
  refine Char.toUpper_eq_of_not_isLower fun hlower => ?_
  have hword := isBlank_of_isAlphanum (c := c) (by simp [Char.isAlphanum, Char.isAlpha, hlower])
  exact Bool.false_ne_true (hword.symm.trans hc)

theorem toLower_of_isBlank {c : Char} (hc : isBlank c = true) : c.toLower = c := by
  refine Char.toLower_eq_of_not_isUpper fun hupper => ?_
  have hword := isBlank_of_isAlphanum (c := c) (by simp [Char.isAlphanum, Char.isAlpha, hupper])
  exact Bool.false_ne_true (hword.symm.trans hc)

/-- A text with a blank in it is none of the words that have none. -/
theorem ne_of_blank {s : String} (h : ∃ c ∈ s.toList, isBlank c = true) {w : String}
    (hw : w.toList.any isBlank = false) : s ≠ w := by
  rintro rfl
  exact Bool.false_ne_true (hw.symm.trans (List.any_eq_true.2 h))

theorem ParameterMode.ofName?_of_blank {name : String}
    (h : ∃ c ∈ name.toList, isBlank c = true) : ofName? name = none := by
  have hupper : ∃ c ∈ (mapChars asciiUpper name).toList, isBlank c = true := by
    obtain ⟨c, hc, hblank⟩ := h
    rw [toList_mapChars]
    exact ⟨c, List.mem_map.2 ⟨c, hc, toUpper_of_isBlank hblank⟩, hblank⟩
  rw [ofName?]
  split
  · exact absurd ‹_› (ne_of_blank hupper (by decide +kernel))
  · exact absurd ‹_› (ne_of_blank hupper (by decide +kernel))
  · exact absurd ‹_› (ne_of_blank hupper (by decide +kernel))
  · rfl

theorem digitValue?_of_blank {c : Char} (hc : isBlank c = true) : digitValue? 10 c = none := by
  have hdigit : ¬ c.isDigit = true := fun h => by
    have hword := isBlank_of_isAlphanum (c := c) (by rw [Char.isAlphanum, h, Bool.or_true])
    exact Bool.false_ne_true (hword.symm.trans hc)
  rw [digitValue?, if_neg hdigit]
  split
  · rw [if_neg (by omega)]
  · split <;> rw [if_neg (by omega)]

theorem digits?_of_blank {s : List Char} (h : ∃ c ∈ s, isBlank c = true) :
    digits? 10 s = none := by
  obtain ⟨c, hc, hblank⟩ := h
  rw [digits?]
  generalize 0 = n
  induction s generalizing n with
  | nil => cases hc
  | cons d s ih =>
    rw [List.foldlM_cons]
    rcases List.mem_cons.1 hc with rfl | hc
    · rw [digitValue?_of_blank hblank]
      rfl
    · cases digitValue? 10 d with
      | none => rfl
      | some v => exact ih hc _

theorem word32?_of_blank {s : List Char} (h : ∃ c ∈ s, isBlank c = true) : word32? s = none := by
  have hnatural : natural? 10 s = none := by
    rw [natural?.eq_def]
    split
    · rfl
    · rename_i rest
      obtain ⟨c, hc, hblank⟩ := h
      rcases List.mem_cons.1 hc with rfl | hc
      · cases hblank
      · rw [digits?_of_blank ⟨c, hc, hblank⟩, ite_self]
    · exact digits?_of_blank h
  rw [word32?, naturalBelow?, hnatural]
  rfl

theorem isBlank_of_isSimpleType {hint : String} (h : isSimpleType hint = true) :
    ∀ c ∈ hint.toList, isBlank c = false := by
  have hrest (head : String) (s : List Char) (hhead : head.toList.any isBlank = false)
      (hs : ∀ c ∈ (after? head.toList s).getD s, isBlank c = false) :
      ∀ c ∈ s, isBlank c = false := by
    cases hafter : after? head.toList s with
    | none => rwa [hafter] at hs
    | some rest =>
      rw [hafter] at hs
      rw [after?_eq_some_iff.1 hafter]
      intro c hc
      rcases List.mem_append.1 hc with hc | hc
      · exact Bool.eq_false_iff.2 (List.any_eq_false.1 hhead c hc)
      · exact hs c hc
  have hsimple : ∀ name ∈ simpleTypes, name.toList.any isBlank = false := by
    decide +kernel
  rw [isSimpleType, List.contains_iff_mem] at h
  refine hrest "java.lang." _ (by decide +kernel) (hrest "_" _ (by decide +kernel) ?_)
  intro c hc
  by_contra hword
  rw [Bool.not_eq_false] at hword
  refine List.any_eq_false.1 (hsimple _ h) c ?_ hword
  rw [String.toList_ofList]
  exact List.mem_map.2 ⟨c, hc, toLower_of_isBlank hword⟩

/-! ### Results up to blank runs -/

/-- Where two results are those of functions that agree up to a map, so are the results of what is
gone on with. -/
theorem toOption_bind_map {ε α α' β β' : Type} {x : Except ε α} {x' : Except ε α'}
    {f : α → Except ε β} {f' : α' → Except ε β'} {g : α → α'} {h : β → β'}
    (hx : x'.toOption = x.toOption.map g)
    (hf : ∀ a, (f' (g a)).toOption = (f a).toOption.map h) :
    (x' >>= f').toOption = (x >>= f).toOption.map h := by
  cases x with
  | error e =>
    cases x' with
    | error e' => rfl
    | ok a' => cases hx
  | ok a =>
    cases x' with
    | error e' => cases hx
    | ok a' =>
      obtain rfl : a' = g a := Option.some.inj hx
      exact hf a

theorem toOption_map {ε α β : Type} (f : α → β) (x : Except ε α) :
    (x.map f).toOption = x.toOption.map f := by
  cases x <;> rfl

namespace Mapping

/-- A mapping with the blank runs of its texts collapsed. -/
def collapsed (m : Mapping) : Mapping where
  property := Text.collapsed m.property
  jdbcType := m.jdbcType.map Text.collapsed
  javaType := m.javaType.map Text.collapsed
  mode := m.mode
  numericScale := m.numericScale
  typeHandler := m.typeHandler.map Text.collapsed

/-- What the first part of a body names. -/
theorem head_squeeze (part : List Char) :
    head (squeeze part) =
      (Text.collapsed (head part).1, (head part).2.map Text.collapsed) := by
  have hcut := cutAtChar?_squeeze (c := ':') rfl (trim part)
  rw [head, head, trim_squeeze, hcut]
  cases cutAtChar? ':' (trim part) with
  | none => simp only [Option.map_none, collapsed_ofList_trim, collapse_eq]
  | some cut =>
    simp only [Option.map_some, Prod.map, collapsed_ofList_trim, trim_squeeze_eq]

/-- No attribute has a blank in its name. -/
theorem setAttribute_of_blank (m : Mapping) {name : String}
    (h : ∃ c ∈ name.toList, isBlank c = true) (value : String) :
    (m.setAttribute name value).toOption = none := by
  unfold setAttribute
  split
  case h_8 => rfl
  all_goals exact absurd rfl (ne_of_blank h (by decide +kernel))

/-- An attribute is set alike to a value and to the value with its blank runs collapsed. -/
theorem setAttribute_collapsed (m : Mapping) (name : String) (value : List Char) :
    (m.collapsed.setAttribute name (.ofList (collapse value))).toOption =
      (m.setAttribute name (.ofList (trim value))).toOption.map collapsed := by
  have hvalue := collapsed_ofList_trim value
  have hset (f : Mapping → String → Mapping)
      (hf : f m.collapsed (Text.collapsed (.ofList (trim value))) =
        (f m (.ofList (trim value))).collapsed) :
      (Except.ok (f m.collapsed (.ofList (collapse value))) :
          Except MappingFault Mapping).toOption =
        (Except.ok (f m (.ofList (trim value))) : Except MappingFault Mapping).toOption.map
          collapsed := by
    rw [← hvalue, hf]
    rfl
  unfold setAttribute
  split
  · exact hset (fun m v => { m with jdbcType := some v }) rfl
  · exact hset (fun m v => { m with javaType := some v }) rfl
  · rcases collapse_cases value with heq | ⟨htrim, hcollapse⟩
    · rw [heq]
      cases ParameterMode.ofName? (.ofList (trim value)) <;> rfl
    · rw [ParameterMode.ofName?_of_blank (by rwa [String.toList_ofList]),
        ParameterMode.ofName?_of_blank (by rwa [String.toList_ofList])]
      rfl
  · rcases collapse_cases value with heq | ⟨htrim, hcollapse⟩
    · rw [heq]
      cases word32? (String.ofList (trim value)).toList <;> rfl
    · rw [word32?_of_blank (by rwa [String.toList_ofList]),
        word32?_of_blank (by rwa [String.toList_ofList])]
      rfl
  · exact hset (fun m v => { m with typeHandler := some v }) rfl
  · rfl
  · rfl
  · rfl

/-- One part of a body behind the first sets an attribute alike. -/
theorem setPart_squeeze (m : Mapping) (part : List Char) :
    (m.collapsed.setPart (squeeze part)).toOption = (m.setPart part).toOption.map collapsed := by
  rw [setPart, setPart, cutAtChar?_squeeze rfl]
  cases cutAtChar? '=' part with
  | none => rfl
  | some cut =>
    simp only [Option.map_some, Prod.map, trim_squeeze_eq]
    rcases collapse_cases cut.1 with heq | ⟨htrim, hcollapse⟩
    · rw [heq]
      exact setAttribute_collapsed m _ cut.2
    · rw [setAttribute_of_blank _ (by rwa [String.toList_ofList]),
        setAttribute_of_blank _ (by rwa [String.toList_ofList])]
      rfl

theorem foldlM_setPart_squeeze (m : Mapping) (parts : List (List Char)) :
    ((parts.map squeeze).foldlM setPart m.collapsed).toOption =
      (parts.foldlM setPart m).toOption.map collapsed := by
  induction parts generalizing m with
  | nil => rfl
  | cons part parts ih =>
    rw [List.map_cons, List.foldlM_cons, List.foldlM_cons]
    exact toOption_bind_map (setPart_squeeze m part) ih

/-- The parts of a body say a mapping alike. -/
theorem ofParts_squeeze (parts : List (List Char)) :
    (ofParts (parts.map squeeze)).toOption = (ofParts parts).toOption.map collapsed := by
  cases parts with
  | nil => rfl
  | cons first rest =>
    have hempty : (Text.collapsed (head first).1).isEmpty = (head first).1.isEmpty := by
      rw [Bool.eq_iff_iff, String.isEmpty_iff, String.isEmpty_iff, ← String.toList_eq_nil_iff,
        Text.collapsed, toList_mapChars, collapse_eq, trim_head, squeeze_eq_nil,
        String.toList_eq_nil_iff]
    rw [List.map_cons, ofParts, ofParts, head_squeeze]
    simp only [hempty]
    split
    · rfl
    · exact foldlM_setPart_squeeze { property := (head first).1, jdbcType := (head first).2 } rest

/-- A type hint is taken over alike: no simple type has a blank in its name. -/
theorem withHint_collapsed (m : Mapping) (hint : Option String) :
    (m.withHint hint).collapsed = m.collapsed.withHint hint := by
  have hhint : (hint.filter isSimpleType).map Text.collapsed = hint.filter isSimpleType := by
    cases hint with
    | none => rfl
    | some hint =>
      rw [Option.filter_some]
      split
      · rename_i hsimple
        rw [Option.map_some, Text.collapsed, mapChars,
          collapse_of_forall (isBlank_of_isSimpleType hsimple), String.ofList_toList]
      · rfl
  obtain ⟨property, jdbcType, javaType, mode, numericScale, typeHandler⟩ := m
  cases javaType with
  | none => simp only [withHint, collapsed, Option.map_none, hhint]
  | some type => rfl

/-- A body says a mapping alike, whether its blank runs are squeezed before or afterwards. -/
theorem toOption_parse_squeeze (content : String) (hint : Option String) :
    (parse (mapChars squeeze content) hint).toOption =
      (parse content hint).toOption.map collapsed := by
  have hparts := ofParts_squeeze (content.toList.splitOn ',')
  rw [parse, parse, toList_mapChars, splitOn_squeeze rfl]
  cases hoff : ofParts (content.toList.splitOn ',') with
  | error fault =>
    rw [hoff] at hparts
    cases hon : ofParts ((content.toList.splitOn ',').map squeeze) with
    | error fault => rfl
    | ok m =>
      rw [hon] at hparts
      cases hparts
  | ok m =>
    rw [hoff] at hparts
    cases hon : ofParts ((content.toList.splitOn ',').map squeeze) with
    | error fault =>
      rw [hon] at hparts
      cases hparts
    | ok m' =>
      rw [hon] at hparts
      obtain rfl : m' = m.collapsed := Option.some.inj hparts
      exact congrArg some (withHint_collapsed m hint).symm

end Mapping

/-- The bodies of a text say mappings alike. -/
theorem toOption_mapM_parse_squeeze (bodies : List String) (hint : Option String) :
    ((bodies.map (mapChars squeeze)).mapM (Mapping.parse · hint)).toOption =
      (bodies.mapM (Mapping.parse · hint)).toOption.map (List.map Mapping.collapsed) := by
  induction bodies with
  | nil => rfl
  | cons body bodies ih =>
    rw [List.map_cons, List.mapM_cons, List.mapM_cons]
    refine toOption_bind_map (Mapping.toOption_parse_squeeze body hint) fun m => ?_
    exact toOption_bind_map ih fun ms => rfl

/-- The placeholders of a trimmed text are bound alike, whether its blank runs are collapsed before
or afterwards. -/
theorem toOption_bindPlaceholders_collapsed (style : PlaceholderStyle) (hint : Option String)
    {text : String} (htext : trim text.toList = text.toList) :
    (bindPlaceholders style hint (collapsed text)).toOption =
      (bindPlaceholders style hint text).toOption.map fun bound =>
        (collapsed bound.1, bound.2.map Mapping.collapsed) := by
  have hsqueeze : collapsed text = mapChars squeeze text := by
    rw [collapsed, mapChars, collapse_eq, htext, mapChars]
  have hsql : Marker.number style 0 (Marker.placeholder.pieces (squeeze text.toList)) =
      collapse (Marker.number style 0 (Marker.placeholder.pieces text.toList)) := by
    rw [Marker.pieces_squeeze, Marker.number_squeezePieces, collapse_eq,
      Marker.trim_number style 0 htext]
  have hmappings := toOption_mapM_parse_squeeze (Marker.placeholder.bodies text) hint
  rw [hsqueeze, bindPlaceholders_eq, bindPlaceholders_eq, Marker.bodies_squeeze, toList_mapChars,
    hsql, toOption_map, toOption_map, hmappings, Option.map_map, Option.map_map]
  refine Option.map_congr fun mappings _ => ?_
  simp only [Function.comp_apply, collapsed, mapChars, String.toList_ofList]

/-- A text with blank runs around and inside of a marker. -/
example :
    bindPlaceholders .question none "a  #\x7b b  c: T,\n mode = IN \x7d" =
        .ok ("a  ?", [{ property := "b  c", jdbcType := some "T" }]) ∧
      bindPlaceholders .question none (collapsed "a  #\x7b b  c: T,\n mode = IN \x7d") =
        .ok ("a ?", [{ property := "b c", jdbcType := some "T" }]) := by
  constructor <;> cbv

/-! ### Engines that shrink -/

/-- The engine with the shrinking of blank runs on or off. -/
def Engine.withShrink (engine : Engine) (shrink : Bool) : Engine :=
  { engine with shrink }

/-- Bound SQL with the blank runs of its texts collapsed. -/
def BoundSql.collapsed (b : BoundSql) : BoundSql :=
  { b with sql := Text.collapsed b.sql, mappings := b.mappings.map Mapping.collapsed }

/-- What compiled content is bound to, with the engine that it was compiled with. -/
def Engine.bound (engine : Engine) (compile : Engine → Except Failure Source) (parameter : Value)
    (dialect : Option String) : Except Failure BoundSql := do
  let source ← compile engine
  source.bind engine parameter dialect

/-- Two results that differ in blank runs alone: the one is there if the other is, and is the other
with the blank runs of the SQL and of each mapping collapsed. -/
def Shrinks (on off : Except Failure BoundSql) : Prop :=
  ((∃ b, on = .ok b) ↔ ∃ b, off = .ok b) ∧
    ∀ b b', on = .ok b → off = .ok b' →
      b.sql = collapsed b'.sql ∧ b.mappings.length = b'.mappings.length ∧
      (∀ (k : Nat) m m', b.mappings[k]? = some m → b'.mappings[k]? = some m' →
        m = m'.collapsed) ∧
      b.parameter = b'.parameter ∧ b.additional = b'.additional

theorem shrinks_of_toOption {on off : Except Failure BoundSql}
    (h : on.toOption = off.toOption.map BoundSql.collapsed) : Shrinks on off := by
  cases off with
  | error failure =>
    cases on with
    | error failure' => exact ⟨by simp, fun b b' hb => nomatch hb⟩
    | ok b => cases h
  | ok b' =>
    cases on with
    | error failure => cases h
    | ok b =>
      obtain rfl : b = b'.collapsed := Option.some.inj h
      refine ⟨by simp, fun b b'' hb hb' => ?_⟩
      obtain rfl := Except.ok.inj hb
      obtain rfl := Except.ok.inj hb'
      refine ⟨rfl, List.length_map .., fun k m m' hm hm' => ?_, rfl, rfl⟩
      rw [BoundSql.collapsed, List.getElem?_map, hm'] at hm
      exact (Option.some.inj hm).symm

namespace Engine

variable (engine : Engine) (template : Template) (parameter : Value) (dialect : Option String)

/-- What a shrinking engine writes is what the other writes, collapsed. The bindings are the
same. -/
theorem render_withShrink :
    (engine.withShrink true).render template parameter dialect =
      ((engine.withShrink false).render template parameter dialect).map fun written =>
        (collapsed written.1, written.2) := by
  have hsurroundings (shrink : Bool) : (engine.withShrink shrink).surroundings parameter =
      engine.surroundings parameter :=
    rfl
  rw [render, render, hsurroundings, hsurroundings]
  rcases (template.render (engine.surroundings parameter)).run (.initial dialect) with
    ⟨failure | produced, c⟩ <;> rfl

/-- What an engine that does not shrink writes has no blanks at its ends. -/
theorem trim_of_render {written : String × Entries Value}
    (h : (engine.withShrink false).render template parameter dialect = .ok written) :
    trim written.1.toList = written.1.toList := by
  rw [render] at h
  split at h
  · obtain rfl := Except.ok.inj h
    rw [finish, if_neg (by simp [withShrink])]
    simp only [trimmed, toList_mapChars, trim_trim]
  · cases h

/-- What is gone on with, where an engine has rendered a template and its placeholders are bound. -/
theorem toOption_render_bind {β : Type} (hint : Option String) (g : β → β)
    {f f' : String × Entries Value → String × List Mapping → β}
    (hf : ∀ written bound, f' (collapsed written.1, written.2)
      (collapsed bound.1, bound.2.map Mapping.collapsed) = g (f written bound)) :
    ((engine.withShrink true).render template parameter dialect >>= fun written =>
      (bindPlaceholders engine.placeholder hint written.1).map (f' written)).toOption =
    ((engine.withShrink false).render template parameter dialect >>= fun written =>
      (bindPlaceholders engine.placeholder hint written.1).map (f written)).toOption.map g := by
  rw [render_withShrink]
  cases hrender : (engine.withShrink false).render template parameter dialect with
  | error failure => rfl
  | ok written =>
    have hbind := toOption_bindPlaceholders_collapsed engine.placeholder hint
      (engine.trim_of_render template parameter dialect hrender)
    change ((bindPlaceholders engine.placeholder hint (collapsed written.1)).map _).toOption =
      ((bindPlaceholders engine.placeholder hint written.1).map _).toOption.map g
    rw [toOption_map, toOption_map, hbind, Option.map_map, Option.map_map]
    exact Option.map_congr fun bound _ => hf written bound

end Engine

namespace Source

/-- A source with the blank runs of its texts collapsed, as far as it holds any. -/
def collapsed : Source → Source
  | .fixed text sql mappings =>
    .fixed (Text.collapsed text) (Text.collapsed sql) (mappings.map Mapping.collapsed)
  | .live template hint => .live template hint

/-- A template that is compiled as a static one is rendered and bound in advance. -/
theorem ofTemplate_static (engine : Engine) (template : Template) (hint : Option String) :
    ofTemplate engine template false hint =
      engine.render template .null none >>= fun written =>
        (bindPlaceholders engine.placeholder hint written.1).map fun bound =>
          .fixed written.1 bound.1 bound.2 := by
  rw [ofTemplate, if_neg Bool.false_ne_true]
  refine bind_congr fun written => ?_
  obtain ⟨text, additional⟩ := written
  simp only
  cases bindPlaceholders engine.placeholder hint text <;> rfl

theorem bind_live (engine : Engine) (template : Template) (hint : Option String)
    (parameter : Value) (dialect : Option String) :
    (Source.live template hint).bind engine parameter dialect =
      engine.render template parameter dialect >>= fun written =>
        (bindPlaceholders engine.placeholder hint written.1).map fun bound =>
          { sql := bound.1, mappings := bound.2, parameter, additional := written.2 } := by
  rw [bind]
  refine bind_congr fun written => ?_
  obtain ⟨text, additional⟩ := written
  simp only
  cases bindPlaceholders engine.placeholder hint text <;> rfl

/-- A template is compiled alike. -/
theorem toOption_ofTemplate_withShrink (engine : Engine) (template : Template) (dynamic : Bool)
    (hint : Option String) :
    (ofTemplate (engine.withShrink true) template dynamic hint).toOption =
      (ofTemplate (engine.withShrink false) template dynamic hint).toOption.map collapsed := by
  cases dynamic with
  | true => rfl
  | false =>
    rw [ofTemplate_static, ofTemplate_static]
    exact engine.toOption_render_bind template .null none hint collapsed fun _ _ => rfl

/-- A source is bound alike. -/
theorem toOption_bind_withShrink (source : Source) (engine : Engine) (parameter : Value)
    (dialect : Option String) :
    (source.collapsed.bind (engine.withShrink true) parameter dialect).toOption =
      (source.bind (engine.withShrink false) parameter dialect).toOption.map
        BoundSql.collapsed := by
  cases source with
  | fixed text sql mappings => rfl
  | live template hint =>
    rw [collapsed, bind_live, bind_live]
    exact engine.toOption_render_bind template parameter dialect hint BoundSql.collapsed
      fun _ _ => rfl

/-- Where compiling gives sources alike, these are bound alike. -/
theorem shrinks_bound (engine : Engine) {compile : Engine → Except Failure Source}
    (hcompile : (compile (engine.withShrink true)).toOption =
      (compile (engine.withShrink false)).toOption.map collapsed)
    (parameter : Value) (dialect : Option String) :
    Shrinks ((engine.withShrink true).bound compile parameter dialect)
      ((engine.withShrink false).bound compile parameter dialect) :=
  shrinks_of_toOption <| toOption_bind_map hcompile fun source =>
    source.toOption_bind_withShrink engine parameter dialect

/-- Mixed content is compiled alike. -/
theorem toOption_ofContent_withShrink (engine : Engine) (content : List Markup)
    (hint : Option String) :
    (ofContent (engine.withShrink true) content hint).toOption =
      (ofContent (engine.withShrink false) content hint).toOption.map collapsed := by
  rw [ofContent, ofContent]
  exact toOption_bind_map (g := id) (by rw [Option.map_id, id]) fun template =>
    toOption_ofTemplate_withShrink engine template _ hint

/-- **Shrinking before or after.** An engine that shrinks blank runs and one that does not bind the
same templates, for every hint, parameter and dialect: templates however they were made, mixed
content and the texts of scripts. The SQL of the one is then the SQL of the other with its blank
runs collapsed, there are as many mappings, and each is that of the other with the blank runs of
its texts collapsed. Parameter and bindings are the same. -/
theorem shrinking_commutes (engine : Engine) (hint : Option String) (parameter : Value)
    (dialect : Option String) :
    (∀ template dynamic, Shrinks
      ((engine.withShrink true).bound (ofTemplate · template dynamic hint) parameter dialect)
      ((engine.withShrink false).bound (ofTemplate · template dynamic hint) parameter dialect)) ∧
    (∀ content, Shrinks
      ((engine.withShrink true).bound (ofContent · content hint) parameter dialect)
      ((engine.withShrink false).bound (ofContent · content hint) parameter dialect)) ∧
    ∀ script, Shrinks
      ((engine.withShrink true).bound (parse · script hint) parameter dialect)
      ((engine.withShrink false).bound (parse · script hint) parameter dialect) := by
  refine ⟨fun template dynamic => ?_, fun content => ?_, fun script => ?_⟩
  · exact shrinks_bound engine (toOption_ofTemplate_withShrink engine template dynamic hint)
      parameter dialect
  · exact shrinks_bound engine (toOption_ofContent_withShrink engine content hint) parameter dialect
  · refine shrinks_bound engine ?_ parameter dialect
    rw [parse, parse]
    exact toOption_bind_map (g := id) (by rw [Option.map_id, id]) fun content =>
      toOption_ofContent_withShrink engine content hint

end Source

end SqlTemplate
