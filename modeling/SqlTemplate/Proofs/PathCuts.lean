import Mathlib
import SqlTemplate.Proofs.Resolution

/-!
# Cutting the path off a property

Where the root of a property is bound, the path from the binding is found by cutting off as many
bytes as the root has. The splitter passes over what stands before the root: blanks, points, and a
part that begins with a bracket that is never closed. The cut begins behind the blanks. So the two
agree where the property begins with its root, and there the path is followed along the steps that
come after the root. Where the property begins with a point or a bracket, the cut falls somewhere
within the root or what stands before it, and where that is in the middle of a character there is
no cut at all.

## Main definitions

* `BoundSql.Buried` : a property that begins with a point or a bracket.
* `BoundSql.Unreadable` : a property that is cut within a character.

## Main results

* `PropertyPath.steps_append` : the steps of a path that is taken apart at a point.
* `PropertyPath.exists_of_front` : the steps behind the root are those of the text behind it.
* `Mapping.trimmed_property` : mappings have properties without blanks at the ends.
* `BoundSql.value?_eq_none_iff` : the properties without a value.
* `BoundSql.bound_properties_followed` : the value of a property whose root is bound.
-/

namespace SqlTemplate

open Text

namespace Text

/-! ### Blanks at the ends -/

/-- A text is what is left of it without its trailing blanks, and blanks. -/
theorem exists_trimEnd_append (s : List Char) :
    ∃ blanks, s = trimEnd s ++ blanks ∧ ∀ c ∈ blanks, isBlank c = true := by
  refine ⟨(s.reverse.takeWhile isBlank).reverse, ?_, fun c hc => ?_⟩
  · rw [trimEnd, ← List.reverse_append, List.takeWhile_append_dropWhile, List.reverse_reverse]
  · exact List.mem_takeWhile_imp (List.mem_reverse.1 hc)

/-- A text is blanks, and what is left of it without its leading blanks. -/
theorem exists_append_trimStart (s : List Char) :
    ∃ blanks, s = blanks ++ trimStart s ∧ ∀ c ∈ blanks, isBlank c = true :=
  ⟨s.takeWhile isBlank, List.takeWhile_append_dropWhile.symm,
    fun _ hc => List.mem_takeWhile_imp hc⟩

theorem trim_eq_nil {s : List Char} (h : ∀ c ∈ s, isBlank c = true) : trim s = [] := by
  rw [trim, trimStart, List.dropWhile_eq_nil_iff.2 h]
  rfl

theorem trim_cons_blank {c : Char} (hc : isBlank c = true) (s : List Char) :
    trim (c :: s) = trim s := by
  rw [trim, trimStart_cons_blank hc, trim]

theorem trim_cons_word {c : Char} (hc : isBlank c = false) (s : List Char) :
    trim (c :: s) = c :: trimEnd s := by
  rw [trim, trimStart_cons_word hc]
  exact trimEnd_append (s := [c]) rfl hc s

/-- A text without its leading blanks does not begin with one. -/
theorem isBlank_of_trimStart {c : Char} {s t : List Char} (h : trimStart s = c :: t) :
    isBlank c = false := by
  have hhead := List.head?_dropWhile_not isBlank s
  rw [← trimStart, h, List.head?_cons] at hhead
  simpa using hhead

/-- A text without its trailing blanks does not end with one. -/
theorem isBlank_of_mem_getLast?_trimEnd {s : List Char} {c : Char}
    (hc : (trimEnd s).getLast? = some c) : isBlank c = false := by
  rw [trimEnd, List.getLast?_reverse] at hc
  obtain ⟨t, ht⟩ := List.head?_eq_some_iff.1 hc
  exact isBlank_of_trimStart ht

theorem trimStart_trim (s : List Char) : trimStart (trim s) = trim s := by
  cases hs : trimStart s with
  | nil =>
    rw [trim, hs]
    rfl
  | cons c t =>
    have hc := isBlank_of_trimStart hs
    have htrim : trim s = c :: trimEnd t := by
      rw [← trim_cons_word hc t, trim, trim, hs, trimStart_cons_word hc]
    rw [htrim, trimStart_cons_word hc]

theorem trim_trim (s : List Char) : trim (trim s) = trim s := by
  rw [trim, trimStart_trim, trim, trimEnd_trimEnd]

theorem trim_trimStart (s : List Char) : trim (trimStart s) = trim s := by
  have htwice : trimStart (trimStart s) = trimStart s := trimStart_of_head? fun c hc => by
    obtain ⟨t, ht⟩ := List.head?_eq_some_iff.1 hc
    exact isBlank_of_trimStart ht
  rw [trim, htwice, trim]

theorem trim_trimEnd (s : List Char) : trim (trimEnd s) = trim s := by
  induction s using List.reverseRecOn with
  | nil => rfl
  | append_singleton s c ih =>
    cases hc : isBlank c with
    | false => rw [trimEnd_concat_word s hc]
    | true =>
      rw [trimEnd_concat_blank s hc, ih, trim, trim, trimStart, trimStart, List.dropWhile_append]
      split
      · rename_i hempty
        rw [List.isEmpty_iff.1 hempty, List.dropWhile_cons_of_pos hc]
        rfl
      · rw [trimEnd_concat_blank _ hc]

theorem trim_eq_nil_iff {s : List Char} : trim s = [] ↔ ∀ c ∈ s, isBlank c = true := by
  refine ⟨fun h => ?_, trim_eq_nil⟩
  cases hs : trimStart s with
  | nil => exact List.dropWhile_eq_nil_iff.1 hs
  | cons c t =>
    rw [← trim_trimStart, hs, trim_cons_word (isBlank_of_trimStart hs)] at h
    cases h

theorem byteLength_le_of_sublist {s t : List Char} (h : s.Sublist t) :
    byteLength s ≤ byteLength t := by
  induction h with
  | slnil => exact Nat.le_refl _
  | cons c _ ih => exact Nat.le_trans ih (Nat.le_add_left ..)
  | cons_cons c _ ih => exact Nat.add_le_add_left ih _

theorem trim_sublist (s : List Char) : (trim s).Sublist s := by
  obtain ⟨blanks, hs, -⟩ := exists_trimEnd_append (trimStart s)
  have hend : (trim s).Sublist (trimStart s) := by
    conv_rhs => rw [hs]
    exact List.sublist_append_left ..
  exact hend.trans (List.dropWhile_sublist _)

end Text

namespace PropertyPath

/-! ### Parts -/

/-- The steps of a part do not depend on the blanks around it. -/
theorem partSteps_congr {s t : List Char} (h : trim s = trim t) : partSteps s = partSteps t := by
  rw [partSteps, partSteps, h]

theorem partSteps_blank {s : List Char} (h : ∀ c ∈ s, isBlank c = true) : partSteps s = [] := by
  rw [partSteps, trim_eq_nil h]
  simp [brackets]

/-- A part that begins with a bracket has the keys in brackets alone. -/
theorem partSteps_bracket (s : List Char) :
    partSteps ('[' :: s) = brackets ('[' :: trimEnd s) := by
  rw [partSteps, trim_cons_word (by decide)]
  simp

/-- A part that begins with a name has the step of that name, and the steps of what stands behind
it. -/
theorem exists_partSteps_eq {c : Char} (hblank : isBlank c = false) (hbracket : c ≠ '[')
    (s : List Char) : ∃ w t, c :: s = w ++ t ∧
      partSteps (c :: s) = .name (.ofList w) :: partSteps t := by
  have hcut := List.takeWhile_append_dropWhile (p := (· != '[')) (l := s)
  rcases hdrop : s.dropWhile (· != '[') with _ | ⟨d, u⟩
  · obtain ⟨blanks, hs, hblanks⟩ := exists_trimEnd_append s
    have hfree : ∀ d ∈ trimEnd s, (d != '[') = true := fun d hd =>
      List.dropWhile_eq_nil_iff.1 hdrop d (hs ▸ List.mem_append_left _ hd)
    refine ⟨c :: trimEnd s, blanks, by rw [List.cons_append, ← hs], ?_⟩
    rw [partSteps_blank hblanks, partSteps, trim_cons_word hblank]
    simp [hbracket, List.takeWhile_eq_self_iff.2 hfree, List.dropWhile_eq_nil_iff.2 hfree, brackets]
  · have hd : d = '[' := by
      have hhead := List.head?_dropWhile_not (· != '[') s
      rw [hdrop, List.head?_cons] at hhead
      simpa using hhead
    subst hd
    rw [hdrop] at hcut
    set w := s.takeWhile (· != '[') with hw
    have htrim : trimEnd (w ++ '[' :: u) = w ++ '[' :: trimEnd u := by
      have h := trimEnd_append (s := w ++ ['[']) List.getLast?_concat (by decide) u
      simpa using h
    have hfree : ∀ d ∈ w, (d != '[') = true := by
      intro d hd
      rw [hw] at hd
      have hne := List.mem_takeWhile_imp hd
      exact hne
    refine ⟨c :: w, '[' :: u, by rw [List.cons_append, hcut], ?_⟩
    rw [partSteps_bracket, partSteps, ← hcut, trim_cons_word hblank, htrim]
    simp [hbracket, List.takeWhile_append_of_pos hfree, List.dropWhile_append_of_pos hfree]

/-! ### Paths -/

theorem steps_nil : steps (.ofList []) = [] := by
  rw [steps, String.toList_ofList, List.splitOn_nil, List.flatMap_singleton]
  exact partSteps_blank (List.forall_mem_nil _)

/-- A path without a point is one part. -/
theorem steps_of_not_mem {s : List Char} (h : '.' ∉ s) : steps (.ofList s) = partSteps s := by
  rw [steps, String.toList_ofList, List.splitOn_eq_singleton h, List.flatMap_singleton]

/-- The steps of a path that is taken apart at a point. -/
theorem steps_append (s t : List Char) :
    steps (.ofList (s ++ '.' :: t)) = steps (.ofList s) ++ steps (.ofList t) := by
  rw [steps, steps, steps, String.toList_ofList, String.toList_ofList, String.toList_ofList,
    List.splitOn_append_cons_self, List.flatMap_append]

/-- A path in front of a point, or the whole of it, is one part. -/
theorem exists_part (s : List Char) : ∃ part, '.' ∉ part ∧
    (s = part ∨ ∃ t, s = part ++ '.' :: t) := by
  induction s with
  | nil => exact ⟨[], List.not_mem_nil, .inl rfl⟩
  | cons c s ih =>
    by_cases hc : c = '.'
    · exact ⟨[], List.not_mem_nil, .inr ⟨s, by rw [hc, List.nil_append]⟩⟩
    · obtain ⟨part, hfree, hs⟩ := ih
      refine ⟨c :: part, by simp [Ne.symm hc, hfree], ?_⟩
      rcases hs with rfl | ⟨t, rfl⟩
      · exact .inl rfl
      · exact .inr ⟨t, rfl⟩

/-- Blanks in front of a path do not count. -/
theorem steps_trimStart (s : List Char) : steps (.ofList (trimStart s)) = steps (.ofList s) := by
  induction s with
  | nil => rfl
  | cons c s ih =>
    cases hc : isBlank c with
    | false => rw [trimStart_cons_word hc]
    | true =>
      rw [trimStart_cons_blank hc, ih]
      obtain ⟨part, hfree, hs⟩ := exists_part s
      have hpoint : '.' ∉ c :: part := by
        rw [List.mem_cons, not_or]
        refine ⟨?_, hfree⟩
        rintro rfl
        cases hc
      have hpart : steps (.ofList part) = steps (.ofList (c :: part)) := by
        rw [steps_of_not_mem hfree, steps_of_not_mem hpoint,
          partSteps_congr (trim_cons_blank hc part)]
      rcases hs with rfl | ⟨t, rfl⟩
      · exact hpart
      · rw [steps_append, ← List.cons_append, steps_append, hpart]

/-- A path that begins with a name has the step of that name, and the steps of the text behind
it. -/
theorem exists_of_front {c : Char} (hblank : isBlank c = false) (hpoint : c ≠ '.')
    (hbracket : c ≠ '[') (s : List Char) : ∃ w t, c :: s = w ++ t ∧
      steps (.ofList (c :: s)) = .name (.ofList w) :: steps (.ofList t) := by
  obtain ⟨part, hfree, hs⟩ := exists_part s
  obtain ⟨w, u, hpart, hsteps⟩ := exists_partSteps_eq hblank hbracket part
  have hcons : '.' ∉ c :: part := by
    simp [Ne.symm hpoint, hfree]
  have hu : '.' ∉ u := fun hmem => hcons (hpart ▸ List.mem_append_right w hmem)
  rcases hs with rfl | ⟨t, rfl⟩
  · exact ⟨w, u, hpart, by rw [steps_of_not_mem hcons, steps_of_not_mem hu, hsteps]⟩
  · refine ⟨w, u ++ '.' :: t, by rw [← List.append_assoc, ← hpart, List.cons_append], ?_⟩
    rw [← List.cons_append, steps_append, steps_append, steps_of_not_mem hcons,
      steps_of_not_mem hu, hsteps, List.cons_append]

/-! ### What steps look up -/

theorem unquoted_sublist (s : List Char) : (unquoted s).Sublist s := by
  have hback := (List.dropWhile_sublist isQuote (l := (s.dropWhile isQuote).reverse)).reverse
  rw [List.reverse_reverse] at hback
  exact hback.trans (List.dropWhile_sublist _)

theorem sublist_of_mem_brackets {s : List Char} {step : Step} (h : step ∈ brackets s) :
    step.key.toList.Sublist s := by
  fun_induction brackets s with
  | case1 => cases h
  | case2 inner key rest hcut hlt ih =>
    have hinner : inner = key ++ [']'] ++ rest := eq_of_cutAt? hcut
    rcases List.mem_cons.1 h with rfl | hmem
    · have hkey : key.Sublist inner := by
        rw [hinner, List.append_assoc]
        exact List.sublist_append_left ..
      rw [Step.key, String.toList_ofList]
      exact (unquoted_sublist _).trans ((trim_sublist key).trans (hkey.cons _))
    · have hrest : rest.Sublist inner := by
        rw [hinner]
        exact List.sublist_append_right ..
      exact (ih hmem).trans (hrest.cons _)
  | case3 => cases h

/-- What a step of a part looks up is a piece of the part. -/
theorem sublist_of_mem_partSteps {part : List Char} {step : Step} (h : step ∈ partSteps part) :
    step.key.toList.Sublist part := by
  rw [partSteps, List.mem_append] at h
  rcases h with hname | hbracket
  · split at hname
    · cases hname
    · obtain rfl := List.mem_singleton.1 hname
      rw [Step.key, String.toList_ofList]
      exact (List.takeWhile_sublist _).trans (trim_sublist part)
  · exact (sublist_of_mem_brackets hbracket).trans
      ((List.dropWhile_sublist _).trans (trim_sublist part))

/-- Each step of a path is one of a part of it. -/
theorem exists_part_of_mem_steps {s : List Char} {step : Step} (h : step ∈ steps (.ofList s)) :
    ∃ part, '.' ∉ part ∧ part.Sublist s ∧ step ∈ partSteps part := by
  induction hn : s.length using Nat.strong_induction_on generalizing s with
  | _ n ih =>
    subst hn
    obtain ⟨part, hfree, hs⟩ := exists_part s
    rcases hs with rfl | ⟨t, rfl⟩
    · rw [steps_of_not_mem hfree] at h
      exact ⟨s, hfree, List.Sublist.refl s, h⟩
    · rw [steps_append, steps_of_not_mem hfree, List.mem_append] at h
      rcases h with hpart | hrest
      · exact ⟨part, hfree, List.sublist_append_left .., hpart⟩
      · have hlength : t.length < (part ++ '.' :: t).length := by
          simp only [List.length_append, List.length_cons]
          omega
        have ht : t.Sublist (part ++ '.' :: t) :=
          (List.sublist_cons_self ..).trans (List.sublist_append_right ..)
        obtain ⟨piece, hpoint, hpiece, hstep⟩ := ih _ hlength hrest rfl
        exact ⟨piece, hpoint, hpiece.trans ht, hstep⟩

/-- What a step of a path looks up is a piece of the path. -/
theorem sublist_of_mem_steps {s : List Char} {step : Step} (h : step ∈ steps (.ofList s)) :
    step.key.toList.Sublist s := by
  obtain ⟨part, -, hpart, hstep⟩ := exists_part_of_mem_steps h
  exact (sublist_of_mem_partSteps hstep).trans hpart

/-- There is no point in what a step looks up. -/
theorem point_notMem_of_mem_steps {s : List Char} {step : Step} (h : step ∈ steps (.ofList s)) :
    '.' ∉ step.key.toList := by
  obtain ⟨part, hpoint, -, hstep⟩ := exists_part_of_mem_steps h
  exact fun hmem => hpoint ((sublist_of_mem_partSteps hstep).subset hmem)

end PropertyPath

/-! ### The properties of mappings -/

namespace Mapping

theorem trim_head (part : List Char) : trim (head part).1.toList = (head part).1.toList := by
  rw [head]
  split <;> simp only [String.toList_ofList, trim_trim]

/-- A mapping has a property, without blanks at its ends. -/
theorem trimmed_property {content : String} {hint : Option String} {m : Mapping}
    (h : parse content hint = .ok m) : trimmed m.property = m.property ∧ m.property ≠ "" := by
  rw [parse] at h
  cases hparts : ofParts (content.toList.splitOn ',') with
  | error fault =>
    rw [hparts] at h
    cases h
  | ok m₁ =>
    rw [hparts] at h
    rw [← Except.ok.inj h, property_withHint]
    cases hsplit : content.toList.splitOn ',' with
    | nil => exact absurd hsplit (List.splitOn_ne_nil _ _)
    | cons first rest =>
      rw [hsplit] at hparts
      have hproperty := property_of_ofParts hparts
      refine ⟨?_, ?_⟩
      · rw [hproperty, trimmed, mapChars, trim_head, String.ofList_toList]
      · intro hempty
        rw [hproperty] at hempty
        simp only [ofParts, hempty] at hparts
        cases hparts

end Mapping

/-! ### The value of a property -/

namespace BoundSql

variable {b : BoundSql} {access : Access} {p r : String} {rest : List Step} {v : Value}

/-- A property begins with a point or a bracket, and a root comes behind that. -/
def Buried (p : String) : Prop :=
  (trimStart p.toList).head? = some '.' ∨ (trimStart p.toList).head? = some '['

instance (p : String) : Decidable (Buried p) :=
  inferInstanceAs (Decidable (_ ∨ _))

/-- The root of a property is bound and comes behind a point or a bracket, and as many bytes of the
property as the root has end within a character. -/
def Unreadable (b : BoundSql) (p : String) : Prop :=
  Buried p ∧ ∃ r rest, PropertyPath.steps p = .name r :: rest ∧
    (b.additional.find? r).isSome = true ∧ byteLength r.toList < byteLength p.toList ∧
    cutAtByte? (byteLength r.toList) p.toList = none

theorem root_of_steps (h : PropertyPath.steps p = .name r :: rest) : root p = r := by
  rw [root, h]

/-- A root that is not buried stands in front of the text that the rest of the path is in. -/
theorem exists_of_not_buried (h : PropertyPath.steps p = .name r :: rest) (hp : ¬ Buried p) :
    ∃ t, trimStart p.toList = r.toList ++ t ∧ PropertyPath.steps (.ofList t) = rest := by
  have hsteps := PropertyPath.steps_trimStart p.toList
  rw [String.ofList_toList, h] at hsteps
  rw [Buried, not_or] at hp
  cases hs : trimStart p.toList with
  | nil =>
    rw [hs, PropertyPath.steps_nil] at hsteps
    cases hsteps
  | cons c s =>
    rw [hs] at hsteps hp
    have hpoint : c ≠ '.' := fun hc => hp.1 (congrArg some hc)
    have hbracket : c ≠ '[' := fun hc => hp.2 (congrArg some hc)
    obtain ⟨w, t, hwt, hfront⟩ :=
      PropertyPath.exists_of_front (isBlank_of_trimStart hs) hpoint hbracket s
    obtain ⟨hname, hrest⟩ := List.cons.inj (hfront.symm.trans hsteps)
    refine ⟨t, ?_, hrest⟩
    rw [← Step.name.inj hname, String.toList_ofList, hwt]

/-- The properties without blanks at the ends that have no value are those that are cut within a
character. None is cut behind its end. -/
theorem value?_eq_none_iff (hp : trimmed p = p) :
    b.value? access p = none ↔ b.Unreadable p := by
  have hstart : trimStart p.toList = p.toList := by
    have htrim : trim p.toList = p.toList :=
      (toList_mapChars trim p).symm.trans (congrArg String.toList hp)
    rw [← htrim, trimStart_trim]
  constructor
  · intro hnone
    cases hv : b.additional.find? (root p) with
    | none =>
      rw [value?_of_not_bound hv] at hnone
      cases hnone
    | some v =>
      rw [value?_of_find? hv, Option.map_eq_none_iff, hstart] at hnone
      -- A root as long as the property, such as the property itself, is cut at the end.
      have hwhole : byteLength (root p).toList ≠ byteLength p.toList := by
        intro hlength
        have hcut := cutAtByte?_append p.toList []
        rw [List.append_nil, ← hlength, hnone] at hcut
        cases hcut
      rcases hsteps : PropertyPath.steps p with _ | ⟨key | key, rest⟩
      · exact absurd (by rw [root, hsteps]) hwhole
      · rw [root_of_steps hsteps] at hv hnone hwhole
        have hmem : .name key ∈ PropertyPath.steps (.ofList p.toList) := by
          rw [String.ofList_toList, hsteps]
          exact List.mem_cons_self
        have hle := byteLength_le_of_sublist (PropertyPath.sublist_of_mem_steps hmem)
        rw [Step.key] at hle
        refine ⟨?_, key, rest, hsteps, by rw [hv]; rfl, by omega, hnone⟩
        by_contra hfront
        obtain ⟨t, ht, -⟩ := exists_of_not_buried hsteps hfront
        rw [hstart] at ht
        rw [ht, cutAtByte?_append] at hnone
        cases hnone
      · exact absurd (by rw [root, hsteps]) hwhole
  · rintro ⟨-, r, rest, hsteps, hbound, -, hcut⟩
    obtain ⟨v, hv⟩ := Option.isSome_iff_exists.1 hbound
    rw [← root_of_steps hsteps] at hv hcut
    rw [value?_of_find? hv, hstart, hcut, Option.map_none]

/-- **Properties below a binding.** Take a property whose path begins with a name that is bound.
Where the property begins with this name, its value is what the steps behind the name lead to from
the value of the binding, one attribute after the other, and null where an attribute is missing.
Where it begins with a point or a bracket, as many bytes as the name has are cut off all the same,
and its value is what the text behind the cut leads to, if there is a cut. No other property of a
mapping is without a value, and none is cut behind its end. -/
theorem bound_properties_followed (b : BoundSql) (access : Access) (p : String) :
    (∀ r rest v, PropertyPath.steps p = .name r :: rest → b.additional.find? r = some v →
      (¬ Buried p →
        b.value? access p = some ((access.follow? v (rest.map Step.key)).getD .null)) ∧
      (Buried p → b.value? access p =
        (cutAtByte? (byteLength r.toList) (trimStart p.toList)).map fun cut =>
          (access.resolve? v (.ofList cut.2)).getD .null)) ∧
    (trimmed p = p → (b.value? access p = none ↔ Buried p ∧ ∃ r rest,
      PropertyPath.steps p = .name r :: rest ∧ (b.additional.find? r).isSome = true ∧
        byteLength r.toList < byteLength p.toList ∧
        cutAtByte? (byteLength r.toList) p.toList = none)) := by
  refine ⟨fun r rest v hsteps hv => ?_, value?_eq_none_iff⟩
  have hroot := root_of_steps hsteps
  have hvalue := value?_of_find? (hroot.symm ▸ hv) access
  rw [hroot] at hvalue
  refine ⟨fun hfront => ?_, fun _ => hvalue⟩
  obtain ⟨t, ht, hrest⟩ := exists_of_not_buried hsteps hfront
  rw [hvalue, ht, cutAtByte?_append, Option.map_some, Access.resolve?, hrest]

/-- A name of two bytes that stands in front and one that is buried, and a buried name of one
byte. -/
theorem bound_properties_followed_accented :
    let row : Value := .object [("b", .bool true)]
    let b : BoundSql := { sql := "", mappings := [], parameter := .null,
                          additional := [("a", row), ("é", row)] }
    b.value? .lenient "é .b" = some (.bool true) ∧ b.value? .lenient ".é.b" = none ∧
      b.value? .lenient ".a.b" = some .null := by
  intro row b
  have hfront : PropertyPath.steps "é .b" = [.name "é", .name "b"] := by
    cbv
  have hburied : PropertyPath.steps ".é.b" = [.name "é", .name "b"] := by
    cbv
  have hplain : PropertyPath.steps ".a.b" = [.name "a", .name "b"] := by
    cbv
  refine ⟨?_, ?_, ?_⟩
  · exact ((bound_properties_followed b .lenient "é .b").1 _ _ row hfront rfl).1 (by decide +kernel)
  · exact ((bound_properties_followed b .lenient ".é.b").2 (by decide +kernel)).2
      ⟨by decide +kernel, _, _, hburied, by decide +kernel, by decide +kernel, by decide +kernel⟩
  · refine (((bound_properties_followed b .lenient ".a.b").1 _ _ row hplain rfl).2
      (by decide +kernel)).trans ?_
    cbv

namespace buried

/-- A row that a name is bound to. -/
def row : Value :=
  .object [("b", .ofInt 1)]

/-- A parameter that holds the row. -/
def parameter : Value :=
  .object [("u", row)]

/-- A template that binds the row to a name and has one placeholder, bound for the parameter. -/
def bound (name text : String) : Except Failure BoundSql :=
  (Source.live (.sequence [.bind name "u", .fixed text]) none).bind {} parameter none

/-- What a placeholder with one property behind the binding of a name is bound to. -/
def expected (name property : String) : BoundSql where
  sql := "?"
  mappings := [{ property }]
  parameter := parameter
  additional := [(dialectName, .null), (name, row)]

set_option maxRecDepth 10000 in
theorem bound_short : bound "a" "#{.a.b}" = .ok (expected "a" ".a.b") := by
  cbv

set_option maxRecDepth 10000 in
theorem bound_long : bound "é" "#{.é.b}" = .ok (expected "é" ".é.b") := by
  cbv

/-- Where the name of two bytes is bound, the cut falls within it, and there are no values. -/
theorem values?_long {b : BoundSql} {m : Mapping} (hm : m ∈ b.mappings)
    (hproperty : m.property = ".é.b") (hbound : (b.additional.find? "é").isSome = true)
    (access : Access) : b.values? access = none := by
  have hsteps : PropertyPath.steps ".é.b" = [.name "é", .name "b"] := by
    cbv
  have hunreadable : b.Unreadable ".é.b" :=
    ⟨by decide +kernel, _, _, hsteps, hbound, by decide +kernel, by decide +kernel⟩
  refine values?_eq_none_iff.2 ⟨m, hm, ?_⟩
  rw [hproperty]
  exact (value?_eq_none_iff (by decide +kernel)).2 hunreadable

end buried

open buried in
/-- Two placeholders whose properties begin with a point. Of the first, which has a name of one
byte, the name is left over in front of the rest of the path, and the value is null and not what the
rest leads to. Of the second, which has a name of two bytes, the cut falls within the name, and with
it there are no values at all. -/
theorem buried_roots_misread :
    PropertyPath.steps ".a.b" = [.name "a", .name "b"] ∧
      PropertyPath.steps ".é.b" = [.name "é", .name "b"] ∧
      Access.lenient.follow? row ["b"] = some (.ofInt 1) ∧
      (bound "a" "#{.a.b}").map (·.values? .lenient) = .ok (some [.null]) ∧
      (bound "é" "#{.é.b}").map (·.values? .lenient) = .ok none := by
  refine ⟨by cbv, by cbv, by cbv, ?_, ?_⟩
  · rw [bound_short]
    cbv
  · rw [bound_long]
    exact congrArg Except.ok (values?_long List.mem_cons_self rfl (by decide +kernel) .lenient)

end BoundSql

end SqlTemplate
