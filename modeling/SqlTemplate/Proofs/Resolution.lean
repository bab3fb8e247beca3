import Mathlib.Data.List.Forall2
import SqlTemplate.Proofs.Outcome
import SqlTemplate.Proofs.Roots
import SqlTemplate.Statement.Source

/-!
# Properties below a name

The body of a placeholder that begins with a root names the property that this root and the path
behind it make up, whatever type and attributes follow. Where the root is the name of a binding, the
value of the property is what the path leads to from the value of that binding.

## Main definitions

* `endsVariable` : where the name of a variable ends in the body of a placeholder.
* `pathFrom` : the path behind a name.
* `BoundSql.BindsTo` : placeholders are bound to what a path leads to from a value.

## Main results

* `Mapping.property_of_parse` : the property that a body names.
* `BoundSql.value?_of_find?` : the value of a property whose root is bound, at the cut.
* `BoundSql.value?_root_append` : the value of a property below a bound name.
* `BoundSql.forall₂_of_values?` : where there are values, there is one for each mapping.
* `bindPlaceholders_getElem?` : each placeholder of a text has the mapping that its body says.
* `BoundSql.bindsTo_of_isRoot` : the values of the placeholders that begin with a bound name.
* `Engine.render_eq_ok_iff` : rendering as an evaluation.
* `Source.exists_gives_of_bind` : the evaluation behind what a source is bound to.
-/

namespace SqlTemplate

open Text

/-- The name of a variable ends at the end of a body, or before a point, an opening bracket, a comma
or a colon. -/
def endsVariable : List Char → Bool
  | [] => true
  | c :: _ => c == '.' || c == '[' || c == ',' || c == ':'

/-- The path that stands behind a name in the body of a placeholder, before type and attributes. -/
def pathFrom (rest : List Char) : List Char :=
  trimEnd (rest.takeWhile fun c => c != ',' && c != ':')

@[simp] theorem pathFrom_nil : pathFrom [] = [] :=
  rfl

theorem endsRoot_of_endsVariable {rest : List Char} (h : endsVariable rest = true) :
    endsRoot rest = true := by
  cases rest with
  | nil => rfl
  | cons c rest =>
    simp only [endsVariable, Bool.or_eq_true, beq_iff_eq] at h
    rcases h with ((rfl | rfl) | rfl) | rfl <;> rfl

/-- A path from a variable is empty, or begins with a point or an opening bracket. -/
theorem exists_of_pathFrom {rest : List Char} (h : endsVariable rest = true) :
    pathFrom rest = [] ∨ ∃ t, pathFrom rest = '.' :: t ∨ pathFrom rest = '[' :: t := by
  cases rest with
  | nil => exact Or.inl rfl
  | cons c rest =>
    simp only [endsVariable, Bool.or_eq_true, beq_iff_eq] at h
    rcases h with ((rfl | rfl) | rfl) | rfl
    · right
      rw [pathFrom, List.takeWhile_cons_of_pos (by decide)]
      exact ⟨_, Or.inl (trimEnd_append (s := ['.']) rfl (by decide) _)⟩
    · right
      rw [pathFrom, List.takeWhile_cons_of_pos (by decide)]
      exact ⟨_, Or.inr (trimEnd_append (s := ['[']) rfl (by decide) _)⟩
    · exact Or.inl rfl
    · exact Or.inl rfl

/-! ### Cuts -/

theorem cutAtChar?_eq (c : Char) (s : List Char) :
    cutAtChar? c s = none ∧ s.takeWhile (· != c) = s ∨
      ∃ tail, cutAtChar? c s = some (s.takeWhile (· != c), tail) := by
  induction s with
  | nil => exact Or.inl ⟨rfl, rfl⟩
  | cons d s ih =>
    by_cases hd : c = d
    · subst hd
      refine Or.inr ⟨s, ?_⟩
      rw [List.takeWhile_cons_of_neg (by simp)]
      simp [cutAtChar?, cutAt?, after?]
    · have hcut : cutAtChar? c (d :: s) = (cutAtChar? c s).map fun cut => (d :: cut.1, cut.2) := by
        simp [cutAtChar?, cutAt?, after?, hd]
      rw [List.takeWhile_cons_of_pos (by simp [Ne.symm hd]), hcut]
      rcases ih with ⟨hnone, hall⟩ | ⟨tail, hsome⟩
      · exact Or.inl ⟨by rw [hnone, Option.map_none], by rw [hall]⟩
      · exact Or.inr ⟨tail, by rw [hsome, Option.map_some]⟩

theorem exists_splitOn_eq (c : Char) (s : List Char) :
    ∃ tail, s.splitOn c = s.takeWhile (· != c) :: tail := by
  have hfree : c ∉ s.takeWhile (· != c) := by
    intro hmem
    have hne := List.mem_takeWhile_imp hmem
    rw [bne_self_eq_false] at hne
    cases hne
  rcases hdrop : s.dropWhile (· != c) with _ | ⟨d, u⟩
  · have hs : s.takeWhile (· != c) = s := by
      rw [← List.append_nil (s.takeWhile _), ← hdrop, List.takeWhile_append_dropWhile]
    rw [hs] at hfree ⊢
    exact ⟨[], List.splitOn_eq_singleton hfree⟩
  · have hhead := List.head?_dropWhile_not (· != c) s
    rw [hdrop, List.head?_cons] at hhead
    have hd : d = c := by
      simpa using hhead
    have hs : s = s.takeWhile (· != c) ++ c :: u := by
      rw [hd] at hdrop
      rw [← hdrop, List.takeWhile_append_dropWhile]
    refine ⟨u.splitOn c, ?_⟩
    conv_lhs => rw [hs]
    exact List.splitOn_append_cons_self_of_not_mem hfree u

/-! ### The property of a mapping -/

namespace Mapping

theorem property_setAttribute {m m' : Mapping} {name value : String}
    (h : m.setAttribute name value = .ok m') : m'.property = m.property := by
  unfold setAttribute at h
  split at h
  case h_3 | h_4 =>
    split at h
    · rw [← Except.ok.inj h]
    · cases h
  case h_8 => cases h
  all_goals rw [← Except.ok.inj h]

theorem property_setPart {m m' : Mapping} {part : List Char} (h : m.setPart part = .ok m') :
    m'.property = m.property := by
  unfold setPart at h
  split at h
  · exact property_setAttribute h
  · cases h

theorem property_foldlM {m m' : Mapping} {parts : List (List Char)}
    (h : parts.foldlM setPart m = .ok m') : m'.property = m.property := by
  induction parts generalizing m with
  | nil => rw [← Except.ok.inj h]
  | cons part parts ih =>
    rw [List.foldlM_cons] at h
    obtain ⟨m₁, hpart, h⟩ := exists_of_bind_eq_ok h
    rw [ih h, property_setPart hpart]

theorem property_of_ofParts {m : Mapping} {first : List Char} {tail : List (List Char)}
    (h : ofParts (first :: tail) = .ok m) : m.property = (head first).1 := by
  rw [ofParts] at h
  by_cases hempty : (head first).1.isEmpty = true
  · simp only [hempty] at h
    cases h
  · simp only [hempty] at h
    exact property_foldlM h

theorem property_withHint (m : Mapping) (hint : Option String) :
    (m.withHint hint).property = m.property := by
  rw [withHint]
  split <;> rfl

variable {w : List Char}

/-- The first part of a body names the property up to a colon. -/
theorem head_root_append (hw : IsRoot w) (u : List Char) :
    (head (w ++ u)).1 = .ofList (w ++ trimEnd (u.takeWhile (· != ':'))) := by
  have hcolon : ∀ c, isBlank c = true → (c != ':') = true := by
    intro c hc
    rw [bne_iff_ne]
    rintro rfl
    cases hc
  have hcut : (w ++ trimEnd u).takeWhile (· != ':') = w ++ (trimEnd u).takeWhile (· != ':') :=
    hw.takeWhile_append (by decide) (trimEnd u)
  rw [head, hw.trim_append]
  rcases cutAtChar?_eq ':' (w ++ trimEnd u) with ⟨hnone, hall⟩ | ⟨tail, hsome⟩
  · rw [hcut] at hall
    have hrest : trimEnd (u.takeWhile (· != ':')) = trimEnd u := by
      rw [← trimEnd_takeWhile hcolon, List.append_cancel_left hall, trimEnd_trimEnd]
    simp only [hnone, hrest]
  · simp only [hsome, hcut, hw.trim_append, trimEnd_takeWhile hcolon]

/-- The property that a body with a root in front names. -/
theorem property_of_parse (hw : IsRoot w) {rest : List Char} {hint : Option String} {m : Mapping}
    (h : parse (.ofList (w ++ rest)) hint = .ok m) :
    m.property = .ofList (w ++ pathFrom rest) := by
  obtain ⟨tail, hsplit⟩ := exists_splitOn_eq ',' (w ++ rest)
  rw [hw.takeWhile_append (by decide)] at hsplit
  have hpath : trimEnd ((rest.takeWhile (· != ',')).takeWhile (· != ':')) = pathFrom rest := by
    rw [List.takeWhile_takeWhile, pathFrom]
    refine congrArg (fun p => trimEnd (rest.takeWhile p)) (funext fun c => ?_)
    rw [Bool.eq_iff_iff, decide_eq_true_iff, Bool.and_eq_true, and_comm]
  rw [parse, String.toList_ofList, hsplit] at h
  cases hparts : ofParts ((w ++ rest.takeWhile (· != ',')) :: tail) with
  | error fault =>
    rw [hparts] at h
    cases h
  | ok m₁ =>
    rw [hparts] at h
    rw [← Except.ok.inj h, property_withHint, property_of_ofParts hparts, head_root_append hw,
      hpath]

end Mapping

/-! ### The value of a property -/

namespace PropertyPath

/-- Points before a path do not count. -/
theorem steps_dropWhile (p : List Char) :
    steps (.ofList (p.dropWhile (· == '.'))) = steps (.ofList p) := by
  induction p with
  | nil => rfl
  | cons c p ih =>
    by_cases hc : c = '.'
    · subst hc
      have hsplit : ('.' :: p).splitOn '.' = [] :: p.splitOn '.' :=
        List.splitOn_append_cons_self_of_not_mem List.not_mem_nil p
      rw [List.dropWhile_cons_of_pos (by decide), ih, steps, steps, String.toList_ofList,
        String.toList_ofList, hsplit, List.flatMap_cons]
      have hpart : partSteps [] = [] := by
        simp [partSteps, trim, trimStart, trimEnd, brackets]
      rw [hpart, List.nil_append]
    · rw [List.dropWhile_cons_of_neg (by simpa using hc)]

end PropertyPath

/-- The empty path leads to the value that it begins at. -/
theorem Access.resolve?_nil (access : Access) (v : Value) :
    access.resolve? v (.ofList []) = some v := by
  simp [resolve?, PropertyPath.steps, PropertyPath.partSteps, trim, trimStart, trimEnd,
    PropertyPath.brackets, follow?]

namespace BoundSql

variable {b : BoundSql}

/-- Where its root is bound, the value of a property is what the text behind the cut leads to from
the value of the binding. -/
theorem value?_of_find? {p : String} {v : Value} (hv : b.additional.find? (root p) = some v)
    (access : Access) :
    b.value? access p =
      (cutAtByte? (byteLength (root p).toList) (trimStart p.toList)).map fun cut =>
        (access.resolve? v (.ofList cut.2)).getD .null := by
  rw [value?]
  simp only [hv, afterRoot?, Option.map_map]
  refine congrArg (Option.map · _) (funext fun cut => ?_)
  rw [Function.comp, Access.resolve?, PropertyPath.steps_dropWhile, Access.resolve?]

theorem value?_of_not_bound {p : String} (hv : b.additional.find? (root p) = none)
    (access : Access) : b.value? access p = some (b.parameterValue access p) := by
  rw [value?]
  simp only [hv]

variable {w p : List Char}

/-- A root is the root of a property that goes on with a point or a bracket, or not at all. -/
theorem root_append (hw : IsRoot w) (hp : p = [] ∨ ∃ t, p = '.' :: t ∨ p = '[' :: t) :
    root (.ofList (w ++ p)) = .ofList w := by
  have hbracket : (trimEnd (p.takeWhile (· != '.'))).takeWhile (· != '[') = [] := by
    rcases hp with rfl | ⟨t, rfl | rfl⟩
    · rfl
    · rfl
    · rw [List.takeWhile_cons_of_pos (by decide)]
      have htrim : trimEnd ('[' :: t.takeWhile (· != '.')) =
          '[' :: trimEnd (t.takeWhile (· != '.')) :=
        trimEnd_append (s := ['[']) rfl (by decide) _
      rw [htrim]
      exact List.takeWhile_cons_of_neg (by decide)
  obtain ⟨tail, hsplit⟩ := exists_splitOn_eq '.' (w ++ p)
  rw [hw.takeWhile_append (by decide)] at hsplit
  have hhead : (w ++ trimEnd (p.takeWhile (· != '.'))).takeWhile (· != '[') = w := by
    rw [hw.takeWhile_append (by decide), hbracket, List.append_nil]
  have hsteps : ∃ more, PropertyPath.steps (.ofList (w ++ p)) = .name (.ofList w) :: more := by
    rw [PropertyPath.steps, String.toList_ofList, hsplit, List.flatMap_cons,
      PropertyPath.partSteps, hw.trim_append]
    simp only [hhead, List.isEmpty_eq_false_iff.2 hw.ne_nil]
    exact ⟨_, rfl⟩
  obtain ⟨more, hmore⟩ := hsteps
  rw [root, hmore]

/-- The value of a property below a bound name is what the path leads to from the value that the
name is bound to. -/
theorem value?_root_append {x : String} {rest : List Char} {v : Value} (hx : IsRoot x.toList)
    (hrest : endsVariable rest = true) (hv : b.additional.find? x = some v) (access : Access) :
    b.value? access (.ofList (x.toList ++ pathFrom rest)) =
      some ((access.resolve? v (.ofList (pathFrom rest))).getD .null) := by
  have hroot : root (.ofList (x.toList ++ pathFrom rest)) = x := by
    rw [root_append hx (exists_of_pathFrom hrest), String.ofList_toList]
  rw [value?_of_find? (hroot.symm ▸ hv), hroot, String.toList_ofList, hx.trimStart_append,
    cutAtByte?_append, Option.map_some]

end BoundSql

/-! ### Lists of checks -/

section MapM

variable {α β ε : Type} {l : List α} {r : List β}

theorem exists_getElem?_of_forall₂ {R : α → β → Prop} (h : List.Forall₂ R l r) {k : Nat} {a : α}
    (hk : l[k]? = some a) : ∃ b, r[k]? = some b ∧ R a b := by
  induction h generalizing k with
  | nil => cases hk
  | @cons a₁ b₁ l r hab _ ih =>
    cases k with
    | zero => exact ⟨b₁, rfl, Option.some.inj hk ▸ hab⟩
    | succ k => exact ih hk

/-- A list of checks gives one result for each element, in order. -/
theorem forall₂_of_mapM {f : α → Except ε β} (h : l.mapM f = .ok r) :
    List.Forall₂ (fun a b => f a = .ok b) l r := by
  induction l generalizing r with
  | nil =>
    obtain rfl := Except.ok.inj h
    exact .nil
  | cons a l ih =>
    rw [List.mapM_cons] at h
    obtain ⟨b, hb, h⟩ := exists_of_bind_eq_ok h
    obtain ⟨bs, hbs, h⟩ := exists_of_bind_eq_ok h
    obtain rfl := Except.ok.inj h
    exact .cons hb (ih hbs)

/-- A list of readings gives one value for each element, in order. -/
theorem forall₂_of_mapM_eq_some {f : α → Option β} (h : l.mapM f = some r) :
    List.Forall₂ (fun a b => f a = some b) l r := by
  induction l generalizing r with
  | nil =>
    obtain rfl := Option.some.inj h
    exact .nil
  | cons a l ih =>
    rw [List.mapM_cons] at h
    obtain ⟨b, hb, h⟩ := Option.bind_eq_some_iff.1 h
    obtain ⟨bs, hbs, h⟩ := Option.bind_eq_some_iff.1 h
    obtain rfl := Option.some.inj h
    exact .cons hb (ih hbs)

/-- A list of readings is missing exactly if one of them is. -/
theorem mapM_eq_none_iff {f : α → Option β} : l.mapM f = none ↔ ∃ a ∈ l, f a = none := by
  induction l with
  | nil => exact iff_of_false nofun fun ⟨_, ha, _⟩ => List.not_mem_nil ha
  | cons a l ih =>
    rw [List.mapM_cons, List.exists_mem_cons_iff, ← ih]
    cases f a with
    | none => exact iff_of_true rfl (Or.inl rfl)
    | some b => cases l.mapM f <;> simp

end MapM

/-! ### Placeholders and their mappings -/

/-- Each placeholder of a text has the mapping that its body says. -/
theorem bindPlaceholders_getElem? {style : PlaceholderStyle} {hint : Option String}
    {text sql : String} {mappings : List Mapping}
    (h : bindPlaceholders style hint text = .ok (sql, mappings)) {k : Nat} {body : String}
    (hk : (Marker.placeholder.bodies text)[k]? = some body) :
    ∃ m, mappings[k]? = some m ∧ Mapping.parse body hint = .ok m := by
  obtain ⟨all, hall, h⟩ := exists_of_bind_eq_ok h
  have hmappings : all = mappings := congrArg Prod.snd (Except.ok.inj h)
  obtain ⟨m, hm, hparse⟩ := exists_getElem?_of_forall₂ (forall₂_of_mapM hall) hk
  exact ⟨m, hmappings ▸ hm, hparse⟩

namespace BoundSql

variable {b : BoundSql} {access : Access} {vs : List Value} {style : PlaceholderStyle}
  {hint : Option String} {text : String}

/-- Where there are values, there is one for each mapping, in order. -/
theorem forall₂_of_values? (h : b.values? access = some vs) :
    List.Forall₂ (fun m v => b.value? access m.property = some v) b.mappings vs :=
  forall₂_of_mapM_eq_some h

/-- There are no values exactly if one of the mappings has none. -/
theorem values?_eq_none_iff :
    b.values? access = none ↔ ∃ m ∈ b.mappings, b.value? access m.property = none :=
  mapM_eq_none_iff

/-- Where there are values, each placeholder with a root in front has the value of the property that
the root and the path behind it make up. -/
theorem getElem?_of_values? {w rest : List Char}
    (hbind : bindPlaceholders style hint text = .ok (b.sql, b.mappings)) (hw : IsRoot w)
    (hvs : b.values? access = some vs) {k : Nat}
    (hk : (Marker.placeholder.bodies text)[k]? = some (.ofList (w ++ rest))) :
    vs[k]? = b.value? access (.ofList (w ++ pathFrom rest)) := by
  obtain ⟨m, hm, hparse⟩ := bindPlaceholders_getElem? hbind hk
  obtain ⟨v, hv, hvalue⟩ := exists_getElem?_of_forall₂ (forall₂_of_values? hvs) hm
  rw [hv, ← Mapping.property_of_parse hw hparse, hvalue]

/-- Where there are values, each placeholder of the text with a given body is bound to what a path
leads to from a value, and to null where a step of the path is missing. -/
def BindsTo (b : BoundSql) (text : String) (body : List Char) (v : Value) (path : List Char) :
    Prop :=
  ∀ (access : Access) (vs : List Value) (k : Nat), b.values? access = some vs →
    (Marker.placeholder.bodies text)[k]? = some (.ofList body) →
    vs[k]? = some ((access.resolve? v (.ofList path)).getD .null)

/-- A placeholder with a bound name in front is bound to what its path leads to from there. -/
theorem bindsTo_of_isRoot {x : String} {rest : List Char} {v : Value}
    (hbind : bindPlaceholders style hint text = .ok (b.sql, b.mappings)) (hx : IsRoot x.toList)
    (hrest : endsVariable rest = true) (hv : b.additional.find? x = some v) :
    b.BindsTo text (x.toList ++ rest) v (pathFrom rest) := by
  intro access vs k hvs hk
  rw [getElem?_of_values? hbind hx hvs hk, value?_root_append hx hrest hv access]

end BoundSql

/-! ### What a source binds -/

/-- Rendering succeeds with what an evaluation gives and the engine finishes. -/
theorem Engine.render_eq_ok_iff {engine : Engine} {t : Template} {parameter : Value}
    {dialect : Option String} {r : String × Entries Value} :
    engine.render t parameter dialect = .ok r ↔ ∃ produced c',
      (t.render (engine.surroundings parameter)).Gives (.initial dialect) produced c' ∧
        engine.finish c' = r := by
  rw [render]
  rcases hrun : (t.render (engine.surroundings parameter)).run (.initial dialect) with
    ⟨failure | produced, c'⟩
  · constructor
    · intro h
      cases h
    · rintro ⟨produced, c', hgives, -⟩
      cases hrun.symm.trans hgives
  · constructor
    · exact fun h => ⟨produced, c', hrun, Except.ok.inj h⟩
    · rintro ⟨produced₂, c₂, hgives, rfl⟩
      obtain ⟨-, rfl⟩ := Evaluation.Gives.unique hrun hgives
      rfl

/-- The text that was bound, and the evaluation that wrote it. -/
theorem Source.exists_gives_of_bind {t : Template} {engine : Engine} {hint dialect : Option String}
    {parameter : Value} {b : BoundSql}
    (h : (Source.live t hint).bind engine parameter dialect = .ok b) :
    ∃ produced c', (t.render (engine.surroundings parameter)).Gives (.initial dialect) produced c' ∧
      b.additional = c'.bindings ∧
      bindPlaceholders engine.placeholder hint (engine.finish c').1 = .ok (b.sql, b.mappings) := by
  obtain ⟨⟨text, additional⟩, hrender, h⟩ := exists_of_bind_eq_ok h
  obtain ⟨⟨sql, mappings⟩, hbind, h⟩ := exists_of_bind_eq_ok h
  obtain rfl := Except.ok.inj h
  obtain ⟨produced, c', hgives, hfinish⟩ := Engine.render_eq_ok_iff.1 hrender
  obtain ⟨rfl, rfl⟩ := Prod.mk.inj hfinish
  exact ⟨produced, c', hgives, rfl, hbind⟩

end SqlTemplate
