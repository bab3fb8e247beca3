import Mathlib
import SqlTemplate.Proofs.MarkerCursors
import SqlTemplate.Proofs.PathCuts
import SqlTemplate.Proofs.Spans

/-!
# Placeholders, mappings and values

The markers of a text become placeholders that are numbered in order, and their bodies become
mappings, one for each placeholder. Both are made in one walk over the text, whose handler reads a
body, keeps the mapping and writes the placeholder of the number it has got to; nothing that is
written is walked over again. The values are given mapping by mapping, so that they stand in the
order of the placeholders, unless one of the properties cannot be read.

## Main definitions

* `Marker.numberer` : the handler of the walk.
* `Marker.numbered` : the spans of a text with a placeholder in the place of each marker.

## Main results

* `mapM_eq_error_iff` : a list of checks fails with its first failure.
* `Marker.run_scan_numberer` : what the walk gives, with the mappings it has kept.
* `BoundSql.values?_eq_none_iff_unreadable` : when there are no values.
* `placeholders_in_order` : placeholders, mappings and values of a text.
-/

namespace SqlTemplate

open Text

/-! ### Lists of checks -/

section MapM

variable {α β ε : Type} {f : α → Except ε β} {l : List α}

/-- A list of checks fails with the first failure in it. -/
theorem mapM_eq_error_iff {e : ε} :
    l.mapM f = .error e ↔ ∃ good bad rest, l = good ++ bad :: rest ∧
      (∀ a ∈ good, ∃ b, f a = .ok b) ∧ f bad = .error e := by
  induction l with
  | nil =>
    refine iff_of_false nofun ?_
    rintro ⟨good, bad, rest, hl, -⟩
    cases good <;> cases hl
  | cons a l ih =>
    rw [List.mapM_cons]
    cases ha : f a with
    | error e' =>
      constructor
      · intro h
        obtain rfl := Except.error.inj h
        exact ⟨[], a, l, rfl, List.forall_mem_nil _, ha⟩
      · rintro ⟨good, bad, rest, hl, hgood, hbad⟩
        cases good with
        | nil =>
          obtain ⟨rfl, rfl⟩ := List.cons.inj hl
          exact congrArg Except.error (Except.error.inj (ha.symm.trans hbad))
        | cons b good =>
          obtain ⟨rfl, -⟩ := List.cons.inj hl
          obtain ⟨c, hc⟩ := hgood a (List.mem_cons_self ..)
          cases ha.symm.trans hc
    | ok b =>
      have hrest : (do
          let r ← Except.ok b
          let rs ← l.mapM f
          pure (r :: rs)) = Except.error e ↔ l.mapM f = .error e := by
        cases hl : l.mapM f with
        | error e' => exact Iff.rfl
        | ok bs => exact iff_of_false nofun nofun
      rw [hrest, ih]
      constructor
      · rintro ⟨good, bad, rest, rfl, hgood, hbad⟩
        exact ⟨a :: good, bad, rest, rfl, List.forall_mem_cons.2 ⟨⟨b, ha⟩, hgood⟩, hbad⟩
      · rintro ⟨good, bad, rest, hl, hgood, hbad⟩
        cases good with
        | nil =>
          obtain ⟨rfl, -⟩ := List.cons.inj hl
          cases ha.symm.trans hbad
        | cons c good =>
          obtain ⟨-, rfl⟩ := List.cons.inj hl
          exact ⟨good, bad, rest, rfl, (List.forall_mem_cons.1 hgood).2, hbad⟩

/-- A list of checks succeeds if each of them does. -/
theorem exists_mapM_eq_ok_iff : (∃ r, l.mapM f = .ok r) ↔ ∀ a ∈ l, ∃ b, f a = .ok b := by
  constructor
  · rintro ⟨r, hr⟩ a ha
    obtain ⟨i, hi⟩ := List.mem_iff_getElem?.1 ha
    obtain ⟨b, -, hb⟩ := exists_getElem?_of_forall₂ (forall₂_of_mapM hr) hi
    exact ⟨b, hb⟩
  · intro hall
    cases hl : l.mapM f with
    | ok r => exact ⟨r, rfl⟩
    | error e =>
      obtain ⟨good, bad, rest, rfl, -, hbad⟩ := mapM_eq_error_iff.1 hl
      obtain ⟨b, hb⟩ := hall bad (by simp)
      cases hbad.symm.trans hb

end MapM

/-! ### Numbers -/

namespace Marker

/-- The handler of the walk: it reads a body, keeps the mapping, and writes the placeholder that
has the number of the mappings kept. -/
def numberer (style : PlaceholderStyle) (hint : Option String) (body : String) :
    StateT (List Mapping) (Except Failure) String := do
  let m ← StateT.lift (Mapping.parse body hint)
  modify (· ++ [m])
  return style.write (← get).length

/-- The walk behind the mappings kept so far gives on the numbers, and keeps the mappings that the
bodies say. -/
theorem run_assemble_numberer (style : PlaceholderStyle) (hint : Option String) (ps : List Piece)
    (kept : List Mapping) :
    (assemble (numberer style hint) ps).run kept =
      ((ps.filterMap fun
        | .char _ => none
        | .token body => some (.ofList body)).mapM (Mapping.parse · hint)).map fun mappings =>
          (number style kept.length ps, kept ++ mappings) := by
  induction ps generalizing kept with
  | nil => exact congrArg (fun l => Except.ok ([], l)) (List.append_nil kept).symm
  | cons p ps ih =>
    cases p with
    | char c =>
      rw [assemble, StateT.run_bind, ih, List.filterMap_cons]
      cases (ps.filterMap _).mapM (Mapping.parse · hint) with
      | error failure => rfl
      | ok mappings => rfl
    | token body =>
      have hfill : (numberer style hint (.ofList body)).run kept =
          (Mapping.parse (.ofList body) hint).map fun m =>
            (style.write (kept ++ [m]).length, kept ++ [m]) := by
        rw [numberer, StateT.run_bind]
        cases Mapping.parse (.ofList body) hint with
        | error failure => rfl
        | ok m => rfl
      rw [assemble, StateT.run_bind, hfill, List.filterMap_cons]
      simp only
      rw [List.mapM_cons]
      cases Mapping.parse (.ofList body) hint with
      | error failure => rfl
      | ok m =>
        simp only [StateT.run_bind, ih]
        cases (ps.filterMap _).mapM (Mapping.parse · hint) with
        | error failure => rfl
        | ok mappings =>
          change Except.ok ((style.write (kept ++ [m]).length).toList ++
            number style (kept ++ [m]).length ps, kept ++ [m] ++ mappings) = _
          rw [List.length_append, List.length_singleton, List.append_assoc]
          rfl

/-- The spans put together with placeholders in the place of the markers: each has the number of
the markers before it, counted from one. -/
def numbered (style : PlaceholderStyle) (l : List Span) : List Char :=
  (l.mapIdx fun i span => span.fill .placeholder fun _ =>
    (style.write (((l.take i).filterMap Span.body?).length + 1)).toList).flatten

theorem number_flatMap (style : PlaceholderStyle) (n : Nat) (l : List Span) :
    number style n (l.flatMap (Span.pieces .placeholder)) =
      (l.mapIdx fun i span => span.fill .placeholder fun _ =>
        (style.write (n + ((l.take i).filterMap Span.body?).length + 1)).toList).flatten := by
  induction l generalizing n with
  | nil => rfl
  | cons span l ih =>
    rw [List.flatMap_cons, List.mapIdx_cons, List.flatten_cons]
    cases span with
    | char c => exact congrArg (c :: ·) (ih n)
    | escape => exact congrArg (_ :: _ :: ·) (ih n)
    | token body =>
      have hcount (i : Nat) : n + 1 + ((l.take i).filterMap Span.body?).length + 1 =
          n + (((Span.token body :: l).take (i + 1)).filterMap Span.body?).length + 1 := by
        rw [List.take_succ_cons, List.filterMap_cons, Span.body?, List.length_cons]
        omega
      rw [Span.pieces, List.singleton_append, number, ih (n + 1)]
      simp only [hcount]
      rfl

end Marker

section Binding

variable {style : PlaceholderStyle} {hint : Option String} {text sql : String}
  {mappings : List Mapping}

theorem bindPlaceholders_eq (style : PlaceholderStyle) (hint : Option String) (text : String) :
    bindPlaceholders style hint text =
      ((Marker.placeholder.bodies text).mapM (Mapping.parse · hint)).map fun mappings =>
        (.ofList (Marker.number style 0 (Marker.placeholder.pieces text.toList)), mappings) := by
  rw [bindPlaceholders]
  cases (Marker.placeholder.bodies text).mapM (Mapping.parse · hint) <;> rfl

/-- The walk over a text, from no mappings: it is the binding of the placeholders. -/
theorem Marker.run_scan_numberer (style : PlaceholderStyle) (hint : Option String)
    (text : String) :
    (scan .placeholder (numberer style hint) text).run [] =
      (bindPlaceholders style hint text).map fun bound => (some bound.1, bound.2) := by
  have hrun := run_assemble_numberer style hint (pieces .placeholder text.toList) []
  rw [scan_eq, replaceM, bindPlaceholders_eq, bodies, StateT.run_map, StateT.run_map, hrun]
  cases ((pieces .placeholder text.toList).filterMap _).mapM (Mapping.parse · hint) <;> rfl

theorem mapM_of_bindPlaceholders (h : bindPlaceholders style hint text = .ok (sql, mappings)) :
    (Marker.placeholder.bodies text).mapM (Mapping.parse · hint) = .ok mappings ∧
      sql.toList = Marker.number style 0 (Marker.placeholder.pieces text.toList) := by
  rw [bindPlaceholders_eq] at h
  cases hall : (Marker.placeholder.bodies text).mapM (Mapping.parse · hint) with
  | error failure =>
    rw [hall] at h
    cases h
  | ok all =>
    rw [hall] at h
    obtain ⟨rfl, rfl⟩ := Prod.mk.inj (Except.ok.inj h)
    exact ⟨rfl, String.toList_ofList⟩

theorem bindPlaceholders_eq_error_iff {failure : Failure} :
    bindPlaceholders style hint text = .error failure ↔
      (Marker.placeholder.bodies text).mapM (Mapping.parse · hint) = .error failure := by
  rw [bindPlaceholders_eq]
  cases (Marker.placeholder.bodies text).mapM (Mapping.parse · hint) with
  | error e => simp [Except.map]
  | ok all => exact iff_of_false nofun nofun

theorem exists_bindPlaceholders_eq_ok_iff :
    (∃ bound, bindPlaceholders style hint text = .ok bound) ↔
      ∃ mappings, (Marker.placeholder.bodies text).mapM (Mapping.parse · hint) = .ok mappings := by
  rw [bindPlaceholders_eq]
  cases (Marker.placeholder.bodies text).mapM (Mapping.parse · hint) with
  | error e => exact iff_of_false nofun nofun
  | ok all => exact iff_of_true ⟨_, rfl⟩ ⟨_, rfl⟩

/-- The SQL of a text is the text with its escapes undone and its markers numbered. -/
theorem toList_of_bindPlaceholders (h : bindPlaceholders style hint text = .ok (sql, mappings)) :
    sql.toList = Marker.numbered style (Marker.spans .placeholder text.toList) := by
  rw [(mapM_of_bindPlaceholders h).2, ← Marker.flatMap_pieces, Marker.number_flatMap,
    Marker.numbered]
  simp only [Nat.zero_add]

/-! ### Values -/

/-- The mappings of a text have properties without blanks at their ends. -/
theorem trimmed_property_of_mem (h : bindPlaceholders style hint text = .ok (sql, mappings))
    {m : Mapping} (hm : m ∈ mappings) : trimmed m.property = m.property := by
  have hall := forall₂_of_mapM (mapM_of_bindPlaceholders h).1
  generalize Marker.placeholder.bodies text = bodies at hall
  clear h
  induction hall with
  | nil => cases hm
  | cons hparse _ ih =>
    rcases List.mem_cons.1 hm with rfl | hm
    · exact (Mapping.trimmed_property hparse).1
    · exact ih hm

namespace BoundSql

variable {b : BoundSql} {access : Access}

/-- There are no values exactly if one of the properties is cut within a character. -/
theorem values?_eq_none_iff_unreadable
    (hbind : bindPlaceholders style hint text = .ok (sql, b.mappings)) :
    b.values? access = none ↔ ∃ m ∈ b.mappings, b.Unreadable m.property := by
  rw [values?_eq_none_iff]
  refine exists_congr fun m => and_congr_right fun hm => ?_
  exact value?_eq_none_iff (trimmed_property_of_mem hbind hm)

/-- Where there are values, placeholders with the same body have the same value. -/
theorem getElem?_eq_of_bodies {vs : List Value}
    (hbind : bindPlaceholders style hint text = .ok (sql, b.mappings))
    (hvs : b.values? access = some vs) {i j : Nat} {body : String}
    (hi : (Marker.placeholder.bodies text)[i]? = some body)
    (hj : (Marker.placeholder.bodies text)[j]? = some body) :
    ∃ v, vs[i]? = some v ∧ vs[j]? = some v := by
  obtain ⟨m, hmi, hm⟩ := bindPlaceholders_getElem? hbind hi
  obtain ⟨m', hmj, hm'⟩ := bindPlaceholders_getElem? hbind hj
  obtain rfl := Except.ok.inj (hm.symm.trans hm')
  have hall := forall₂_of_values? hvs
  obtain ⟨v, hv, hvalue⟩ := exists_getElem?_of_forall₂ hall hmi
  obtain ⟨w, hw, hvalue'⟩ := exists_getElem?_of_forall₂ hall hmj
  obtain rfl := Option.some.inj (hvalue.symm.trans hvalue')
  exact ⟨v, hv, hw⟩

end BoundSql

end Binding

/-- **Placeholders, mappings and values.** The placeholders of a text are bound if all bodies are
mappings, and else there is the failure of the first body that is none. The binding is one walk
over the text, in which nothing is walked over that has been written. The mappings are what the
bodies say, in order; the SQL is the text with its escapes undone, each marker replaced by the
placeholder of its number, and all else as it stands. Whatever they are bound with, there is one
value for each mapping, in order and the same for the same bodies, unless there are no values at
all; and there are none exactly if a property begins with a point or a bracket and as many bytes of
it as the name of its binding has end within a character. -/
theorem placeholders_in_order (style : PlaceholderStyle) (hint : Option String) (text : String) :
    ((∃ bound, bindPlaceholders style hint text = .ok bound) ↔
      ∀ body ∈ Marker.placeholder.bodies text, ∃ m, Mapping.parse body hint = .ok m) ∧
    (∀ failure, bindPlaceholders style hint text = .error failure ↔
      ∃ good bad rest, Marker.placeholder.bodies text = good ++ bad :: rest ∧
        (∀ body ∈ good, ∃ m, Mapping.parse body hint = .ok m) ∧
        Mapping.parse bad hint = .error failure) ∧
    (Marker.scan .placeholder (Marker.numberer style hint) text).run [] =
      (bindPlaceholders style hint text).map (fun bound => (some bound.1, bound.2)) ∧
    ∀ sql mappings, bindPlaceholders style hint text = .ok (sql, mappings) →
      List.Forall₂ (fun body m => Mapping.parse body hint = .ok m)
        (Marker.placeholder.bodies text) mappings ∧
      sql.toList = Marker.numbered style (Marker.spans .placeholder text.toList) ∧
      ∀ parameter additional access,
        let b : BoundSql := { sql, mappings, parameter, additional }
        (∀ vs, b.values? access = some vs →
          List.Forall₂ (fun m v => b.value? access m.property = some v) mappings vs ∧
          ∀ (i j : Nat) (body : String), (Marker.placeholder.bodies text)[i]? = some body →
            (Marker.placeholder.bodies text)[j]? = some body →
            ∃ v, vs[i]? = some v ∧ vs[j]? = some v) ∧
        (b.values? access = none ↔ ∃ m ∈ mappings, BoundSql.Buried m.property ∧
          ∃ r rest, PropertyPath.steps m.property = .name r :: rest ∧
            (additional.find? r).isSome = true ∧
            byteLength r.toList < byteLength m.property.toList ∧
            cutAtByte? (byteLength r.toList) m.property.toList = none) := by
  refine ⟨exists_bindPlaceholders_eq_ok_iff.trans exists_mapM_eq_ok_iff,
    fun failure => bindPlaceholders_eq_error_iff.trans mapM_eq_error_iff,
    Marker.run_scan_numberer style hint text, fun sql mappings hbind => ?_⟩
  refine ⟨forall₂_of_mapM (mapM_of_bindPlaceholders hbind).1, toList_of_bindPlaceholders hbind,
    fun parameter additional access => ⟨fun vs hvs => ?_, ?_⟩⟩
  · exact ⟨BoundSql.forall₂_of_values? hvs,
      fun i j body => BoundSql.getElem?_eq_of_bodies hbind hvs⟩
  · exact BoundSql.values?_eq_none_iff_unreadable hbind

/-- An escaped marker, and three placeholders, of which two have the same body. -/
theorem placeholders_in_order_of_three :
    let text := "\\#{x} #{a.id} #{ u }#{a.id}"
    let b : BoundSql :=
      { sql := "#{x} $1 $2$3",
        mappings := [{ property := "a.id" }, { property := "u" }, { property := "a.id" }],
        parameter := .object [("u", .bool true)],
        additional := [("a", .object [("id", .bool false)])] }
    let vs : List Value := [.bool false, .bool true, .bool false]
    bindPlaceholders .dollar none text = .ok (b.sql, b.mappings) ∧
      b.values? .lenient = some vs ∧
      List.Forall₂ (fun body m => Mapping.parse body none = .ok m)
        (Marker.placeholder.bodies text) b.mappings ∧
      List.Forall₂ (fun m v => b.value? .lenient m.property = some v) b.mappings vs := by
  intro text b vs
  have hbind : bindPlaceholders .dollar none text = .ok (b.sql, b.mappings) := by
    cbv
  have hvs : b.values? .lenient = some vs := by
    cbv
  obtain ⟨hall, -, hvalues⟩ :=
    (placeholders_in_order .dollar none text).2.2.2 b.sql b.mappings hbind
  exact ⟨hbind, hvs, hall, ((hvalues b.parameter b.additional .lenient).1 vs hvs).1⟩

/-- A text whose placeholder is bound, and for which there are no values. -/
theorem buried_root_leaves_no_values :
    bindPlaceholders .question none "#{.é.b}" = .ok ("?", [{ property := ".é.b" }]) ∧
      (BoundSql.buried.bound "é" "#{.é.b}").map (fun b => (b.sql, b.mappings)) =
        .ok ("?", [{ property := ".é.b" }]) ∧
      (BoundSql.buried.bound "é" "#{.é.b}").map (·.values? .lenient) = .ok none := by
  have hnone : (BoundSql.buried.expected "é" ".é.b").values? .lenient = none :=
    BoundSql.buried.values?_long List.mem_cons_self rfl (by decide +kernel) .lenient
  rw [BoundSql.buried.bound_long]
  exact ⟨by cbv, rfl, congrArg Except.ok hnone⟩

end SqlTemplate
