import Mathlib
import SqlTemplate.Proofs.PathCuts
import SqlTemplate.Template.Affixes

/-!
# Cutting overrides off a body

A trimming element looks for its overrides in an upper-case copy of the body, and takes as many
bytes off the body as the blank-free end of the override has. An upper-case copy in the sense of
ASCII has every character where the body has it and of the same size, so that the cut falls where
the override ends in the body. At either end at most one override goes, the first of the list that
stands there; the blanks that are next to it go as well, and all else is kept.

## Main definitions

* `Affixes.Declared` : the affixes that the three trimming elements can have.
* `Affixes.Begins`, `Affixes.Ends` : a text begins or ends with an override, whatever the case of
  ASCII letters.
* `Affixes.Gives` : what is taken off at one end.
* `Affixes.slice?` : the cuts at byte offsets.

## Main results

* `Affixes.dropLeading_parts`, `Affixes.dropTrailing_parts` : what is taken off at each end.
* `Affixes.one_override_per_side` : the parts of a body.
-/

namespace SqlTemplate

open Text

namespace Text

/-! ### Upper case -/

theorem utf8Size_toUpper (c : Char) : c.toUpper.utf8Size = c.utf8Size := by
  by_cases h : c.isLower = true
  · have hlower : 97 ≤ c.toNat ∧ c.toNat ≤ 122 := by
      simpa [Char.isLower, UInt32.le_iff_toNat_le] using h
    have hupper : c.toUpper.toNat = c.toNat - 32 := by
      rw [Char.toUpper_eq_of_isLower h, Char.toNat_ofNat, if_pos (.inl (by omega))]
    have hone : ∀ d : Char, d.toNat ≤ 127 → d.utf8Size = 1 := fun d hd =>
      Char.utf8Size_eq_one_iff.2 (UInt32.le_iff_toNat_le.2 hd)
    rw [hone _ (by omega), hone _ (by omega)]
  · rw [Char.toUpper_eq_of_not_isLower h]

theorem byteLength_asciiUpper (s : List Char) : byteLength (asciiUpper s) = byteLength s := by
  induction s with
  | nil => rfl
  | cons c s ih =>
    rw [asciiUpper, List.map_cons, byteLength, byteLength, utf8Size_toUpper, ← asciiUpper, ih]

theorem asciiUpper_asciiUpper (s : List Char) : asciiUpper (asciiUpper s) = asciiUpper s := by
  simp [asciiUpper]

theorem byteLength_congr {s t : List Char} (h : asciiUpper s = asciiUpper t) :
    byteLength s = byteLength t := by
  rw [← byteLength_asciiUpper s, h, byteLength_asciiUpper]

theorem length_congr {s t : List Char} (h : asciiUpper s = asciiUpper t) :
    s.length = t.length := by
  rw [← length_asciiUpper s, h, length_asciiUpper]

/-! ### Ends without blanks -/

theorem isBlank_of_mem_head?_trim {s : List Char} (h : trim s = s) {c : Char}
    (hc : s.head? = some c) : isBlank c = false := by
  rw [← h, ← trimStart_trim] at hc
  obtain ⟨t, ht⟩ := List.head?_eq_some_iff.1 hc
  exact isBlank_of_trimStart ht

/-- What is left behind a piece of a trimmed text and the blanks after it is trimmed. -/
theorem trim_of_append {s t : List Char} (h : trim (s ++ t) = s ++ t) (ht : trimStart t = t) :
    trim t = t := by
  refine trim_of_ends (fun c hc => ?_) fun c hc => ?_
  · rw [← ht] at hc
    obtain ⟨u, hu⟩ := List.head?_eq_some_iff.1 hc
    exact isBlank_of_trimStart hu
  · refine isBlank_of_mem_getLast?_trimEnd (s := trimStart (s ++ t)) ?_
    rw [← trim, h, List.getLast?_append, hc, Option.some_or]

/-- What is left in front of a piece of a trimmed text and the blanks before it is trimmed. -/
theorem trim_of_append_left {s t : List Char} (h : trim (s ++ t) = s ++ t)
    (hs : trimEnd s = s) : trim s = s := by
  refine trim_of_ends (fun c hc => ?_) fun c hc => ?_
  · exact isBlank_of_mem_head?_trim h (by rw [List.head?_append, hc, Option.some_or])
  · exact isBlank_of_mem_getLast?_trimEnd (by rw [hs, hc])

end Text

namespace Affixes

/-! ### Overrides at the ends of a text -/

/-- The affixes of the elements `trim`, `where` and `set`. -/
inductive Declared : Affixes → Prop where
  | ofAttributes (lead leadOverrides tail tailOverrides : Option String) :
    Declared (ofAttributes lead leadOverrides tail tailOverrides)
  | whereClause : Declared whereClause
  | setClause : Declared setClause

/-- The text begins with the override, whatever the case of ASCII letters. -/
def Begins (s : List Char) (override : List Char) : Prop :=
  ∃ head rest, s = head ++ rest ∧ asciiUpper head = asciiUpper override

/-- The text ends with the override, whatever the case of ASCII letters. -/
def Ends (s : List Char) (override : List Char) : Prop :=
  ∃ rest tail, s = rest ++ tail ∧ asciiUpper tail = asciiUpper override

/-- What one end of a text gives up: where an override of the list holds there, what `cut` leaves of
the first such override, as the text has it, and nothing where none holds. -/
inductive Gives (holds : List Char → Prop) (cut : List Char → List Char) :
    List String → List Char → Prop where
  | first {earlier later : List String} {override : String} {part : List Char}
    (hearlier : ∀ o ∈ earlier, ¬ holds o.toList) (hholds : holds override.toList)
    (hpart : asciiUpper part = asciiUpper (cut override.toList)) :
    Gives holds cut (earlier ++ override :: later) part
  | none {overrides : List String} (h : ∀ o ∈ overrides, ¬ holds o.toList) :
    Gives holds cut overrides []

/-- All overrides of a list are in upper case. -/
def IsUpper (overrides : List String) : Prop :=
  ∀ o ∈ overrides, asciiUpper o.toList = o.toList

instance (overrides : List String) : Decidable (IsUpper overrides) :=
  inferInstanceAs (Decidable (∀ o ∈ overrides, _))

theorem isUpper_overrides (list : String) : IsUpper (overrides list) := by
  intro o ho
  obtain ⟨s, -, rfl⟩ := List.mem_map.1 ho
  rw [String.toList_ofList, asciiUpper_asciiUpper]

theorem isUpper_getD (list : Option String) : IsUpper ((list.map overrides).getD []) := by
  cases list with
  | none => exact List.forall_mem_nil _
  | some list => exact isUpper_overrides list

theorem Declared.isUpper {affixes : Affixes} (h : affixes.Declared) :
    IsUpper affixes.leadOverrides ∧ IsUpper affixes.tailOverrides := by
  cases h with
  | ofAttributes lead leadOverrides tail tailOverrides =>
    exact ⟨isUpper_getD leadOverrides, isUpper_getD tailOverrides⟩
  | whereClause => exact ⟨by decide +kernel, List.forall_mem_nil _⟩
  | setClause => exact ⟨List.forall_mem_nil _, by decide +kernel⟩

section Ends

variable {overrides : List String} {s o : List Char}

theorem isPrefixOf_iff_begins (ho : asciiUpper o = o) :
    o.isPrefixOf (asciiUpper s) = true ↔ Begins s o := by
  rw [List.isPrefixOf_iff_prefix]
  constructor
  · rintro ⟨rest, hrest⟩
    obtain ⟨u, v, rfl, hu, -⟩ := List.map_eq_append_iff.1 hrest.symm
    exact ⟨u, v, rfl, hu.trans ho.symm⟩
  · rintro ⟨head, rest, rfl, hhead⟩
    refine ⟨asciiUpper rest, ?_⟩
    rw [← ho, ← hhead, asciiUpper, asciiUpper, asciiUpper, List.map_append]

theorem isSuffixOf_iff_ends (ho : asciiUpper o = o) :
    o.isSuffixOf (asciiUpper s) = true ↔ Ends s o := by
  rw [List.isSuffixOf_iff_suffix]
  constructor
  · rintro ⟨rest, hrest⟩
    obtain ⟨u, v, rfl, -, hv⟩ := List.map_eq_append_iff.1 hrest.symm
    exact ⟨u, v, rfl, hv.trans ho.symm⟩
  · rintro ⟨rest, tail, rfl, htail⟩
    refine ⟨asciiUpper rest, ?_⟩
    rw [← ho, ← htail, asciiUpper, asciiUpper, asciiUpper, List.map_append]

variable {holds : List Char → Prop} {cut : List Char → List Char} {test : List Char → Bool}

theorem gives_of_find?_none (htest : ∀ o ∈ overrides, test o.toList = true ↔ holds o.toList)
    (h : (overrides.map String.toList).find? test = none) : Gives holds cut overrides [] := by
  rw [List.find?_map, Option.map_eq_none_iff, List.find?_eq_none] at h
  exact .none fun o ho hholds => h o ho ((htest o ho).2 hholds)

theorem gives_of_find? {part : List Char}
    (htest : ∀ o ∈ overrides, test o.toList = true ↔ holds o.toList)
    (h : (overrides.map String.toList).find? test = some o)
    (hpart : asciiUpper part = asciiUpper (cut o)) : Gives holds cut overrides part := by
  rw [List.find?_map, Option.map_eq_some_iff] at h
  obtain ⟨override, hfind, rfl⟩ := h
  obtain ⟨htrue, earlier, later, rfl, hearlier⟩ := List.find?_eq_some_iff_append.1 hfind
  refine .first (fun p hp hholds => ?_) ((htest override (by simp)).1 htrue) hpart
  have hfalse := hearlier p hp
  have htest' := (htest p (by simp [hp])).2 hholds
  simp [htest'] at hfalse

theorem mem_of_find? (h : (overrides.map String.toList).find? test = some o) :
    ∃ override ∈ overrides, override.toList = o :=
  List.mem_map.1 (List.mem_of_find?_eq_some h)

end Ends

/-! ### The cuts -/

/-- The leading override cut off as many bytes as it has without its trailing blanks, if the cut
falls within no character. -/
def sliceLeading? (overrides : List String) (s : List Char) : Option (List Char) :=
  match leading? overrides s with
  | some o => (cutAtByte? (byteLength (trimEnd o)) s).map fun cut => trimStart cut.2
  | none => some s

/-- The trailing override cut off as many bytes before the end as it has without its leading
blanks, if there are as many and the cut falls within no character. -/
def sliceTrailing? (overrides : List String) (s : List Char) : Option (List Char) :=
  match trailing? overrides s with
  | some o =>
    if byteLength (trimStart o) ≤ byteLength s then
      (cutAtByte? (byteLength s - byteLength (trimStart o)) s).map fun cut => trimEnd cut.1
    else none
  | none => some s

/-- What is left of a body where both overrides are cut off by their numbers of bytes. -/
def slice? (affixes : Affixes) (body : List Char) : Option (List Char) :=
  (sliceLeading? affixes.leadOverrides (trim body)).bind (sliceTrailing? affixes.tailOverrides)

/-- A text that begins with an override is as much of it as is cut off, and the rest. -/
theorem exists_cut_begins {s o : List Char} (h : Begins s o) :
    ∃ part rest, s = part ++ rest ∧ asciiUpper part = asciiUpper (trimEnd o) := by
  obtain ⟨head, rest, rfl, hhead⟩ := h
  obtain ⟨blanks, ho, -⟩ := exists_trimEnd_append o
  have hsplit : asciiUpper head = asciiUpper (trimEnd o) ++ asciiUpper blanks := by
    rw [hhead, asciiUpper, asciiUpper, asciiUpper, ← List.map_append, ← ho]
  obtain ⟨part, after, rfl, hpart, -⟩ := List.map_eq_append_iff.1 hsplit
  exact ⟨part, after ++ rest, List.append_assoc .., hpart⟩

theorem exists_cut_ends {s o : List Char} (h : Ends s o) :
    ∃ rest part, s = rest ++ part ∧ asciiUpper part = asciiUpper (trimStart o) := by
  obtain ⟨rest, tail, rfl, htail⟩ := h
  obtain ⟨blanks, ho, -⟩ := exists_append_trimStart o
  have hsplit : asciiUpper tail = asciiUpper blanks ++ asciiUpper (trimStart o) := by
    rw [htail, asciiUpper, asciiUpper, asciiUpper, ← List.map_append, ← ho]
  obtain ⟨before, part, rfl, -, hpart⟩ := List.map_eq_append_iff.1 hsplit
  exact ⟨rest ++ before, part, (List.append_assoc ..).symm, hpart⟩

variable {overrides : List String}

/-- A text is what its beginning gives up, blanks, and the rest, and the cut falls between
characters. -/
theorem dropLeading_parts (hupper : IsUpper overrides) (s : List Char) :
    ∃ head gap, s = head ++ gap ++ dropLeading overrides s ∧ (∀ c ∈ gap, isBlank c = true) ∧
      (trimStart s = s → trimStart (dropLeading overrides s) = dropLeading overrides s) ∧
      Gives (Begins s) trimEnd overrides head ∧
      sliceLeading? overrides s = some (dropLeading overrides s) := by
  have htest : ∀ o ∈ overrides, o.toList.isPrefixOf (asciiUpper s) = true ↔ Begins s o.toList :=
    fun o ho => isPrefixOf_iff_begins (hupper o ho)
  cases hlead : leading? overrides s with
  | none =>
    have hdrop : dropLeading overrides s = s := by
      rw [dropLeading, hlead]
    rw [hdrop]
    refine ⟨[], [], rfl, List.forall_mem_nil _, id, gives_of_find?_none htest hlead, ?_⟩
    rw [sliceLeading?, hlead]
  | some o =>
    obtain ⟨override, hmem, rfl⟩ := mem_of_find? hlead
    have hholds := List.find?_some hlead
    have hbegins := (htest override hmem).1 hholds
    obtain ⟨part, rest, hs, hpart⟩ := exists_cut_begins hbegins
    obtain ⟨gap, hgap, hblank⟩ := exists_append_trimStart rest
    have hdrop : dropLeading overrides s = trimStart rest := by
      rw [dropLeading, hlead]
      simp only
      rw [← length_congr hpart, hs, List.drop_left]
    rw [hdrop]
    refine ⟨part, gap, by rw [hs, List.append_assoc, ← hgap], hblank, fun _ => ?_,
      gives_of_find? htest hlead hpart, ?_⟩
    · exact List.dropWhile_idempotent ..
    · rw [sliceLeading?, hlead]
      simp only
      rw [← byteLength_congr hpart, hs, cutAtByte?_append, Option.map_some]

/-- A text is the rest, blanks, and what its end gives up, and the cut falls between characters. -/
theorem dropTrailing_parts (hupper : IsUpper overrides) (s : List Char) :
    ∃ gap tail, s = dropTrailing overrides s ++ gap ++ tail ∧ (∀ c ∈ gap, isBlank c = true) ∧
      (trimEnd s = s → trimEnd (dropTrailing overrides s) = dropTrailing overrides s) ∧
      Gives (Ends s) trimStart overrides tail ∧
      sliceTrailing? overrides s = some (dropTrailing overrides s) := by
  have htest : ∀ o ∈ overrides, o.toList.isSuffixOf (asciiUpper s) = true ↔ Ends s o.toList :=
    fun o ho => isSuffixOf_iff_ends (hupper o ho)
  cases htrail : trailing? overrides s with
  | none =>
    have hdrop : dropTrailing overrides s = s := by
      rw [dropTrailing, htrail]
    rw [hdrop]
    refine ⟨[], [], by simp, List.forall_mem_nil _, id, gives_of_find?_none htest htrail, ?_⟩
    rw [sliceTrailing?, htrail]
  | some o =>
    obtain ⟨override, hmem, rfl⟩ := mem_of_find? htrail
    have hholds := List.find?_some htrail
    have hends := (htest override hmem).1 hholds
    obtain ⟨rest, part, hs, hpart⟩ := exists_cut_ends hends
    obtain ⟨gap, hgap, hblank⟩ := exists_trimEnd_append rest
    have hdrop : dropTrailing overrides s = trimEnd rest := by
      rw [dropTrailing, htrail]
      simp only
      rw [← length_congr hpart, hs, List.length_append, Nat.add_sub_cancel, List.take_left]
    rw [hdrop]
    refine ⟨gap, part, by rw [hs, ← hgap], hblank, fun _ => trimEnd_trimEnd rest,
      gives_of_find? htest htrail hpart, ?_⟩
    rw [sliceTrailing?, htrail]
    simp only
    rw [← byteLength_congr hpart, hs, byteLength_append, Nat.add_sub_cancel,
      if_pos (Nat.le_add_left ..), cutAtByte?_append, Option.map_some]

/-- **At most one override on either side.** Trimming takes a body apart into a head, blanks, a
core, blanks and a tail. The head is the first leading override that the trimmed body begins with,
without the blanks it ends with, and the tail is the first trailing override that the text behind
the head and its blanks ends with, without the blanks it begins with; either is empty where there
is no such override. Both are cut off by the number of bytes of the override, and neither cut falls
within a character. The core has no blanks at its ends. It is put between the affixes that there
are, and where it is empty there is nothing. -/
theorem one_override_per_side {affixes : Affixes} (h : affixes.Declared) (body : String) :
    ∃ head gap core gap' tail,
      trim body.toList = head ++ gap ++ core ++ gap' ++ tail ∧
      (∀ c ∈ gap ++ gap', isBlank c = true) ∧ trim core = core ∧
      Gives (Begins (trim body.toList)) trimEnd affixes.leadOverrides head ∧
      Gives (Ends (core ++ gap' ++ tail)) trimStart affixes.tailOverrides tail ∧
      affixes.slice? body.toList = some core ∧
      (affixes.enclose? body = none ↔ core = []) ∧
      (core ≠ [] → affixes.enclose? body =
        some (affixes.lead.elim "" (· ++ " ") ++ String.ofList core ++
          affixes.tail.elim "" (" " ++ ·))) := by
  obtain ⟨hlead, htail⟩ := h.isUpper
  obtain ⟨head, gap, hhead, hgap, hstart, hgives, hslice⟩ :=
    dropLeading_parts hlead (trim body.toList)
  set rest := dropLeading affixes.leadOverrides (trim body.toList) with hrest
  obtain ⟨gap', tail, htailParts, hgap', hend, hgives', hslice'⟩ := dropTrailing_parts htail rest
  have htrimmed : trim rest = rest :=
    trim_of_append (s := head ++ gap) (by rw [← hhead, trim_trim]) (hstart (trimStart_trim _))
  have hcore : affixes.core body.toList = dropTrailing affixes.tailOverrides rest := rfl
  set core := dropTrailing affixes.tailOverrides rest
  refine ⟨head, gap, core, gap', tail, ?_, ?_, ?_, hgives, htailParts ▸ hgives', ?_, ?_, ?_⟩
  · calc trim body.toList
        = head ++ gap ++ rest := hhead
      _ = head ++ gap ++ (core ++ gap' ++ tail) := by rw [← htailParts]
      _ = head ++ gap ++ core ++ gap' ++ tail := by simp only [List.append_assoc]
  · intro c hc
    exact (List.mem_append.1 hc).elim (hgap c) (hgap' c)
  · refine trim_of_append_left (t := gap' ++ tail) ?_ (hend ?_)
    · rw [← List.append_assoc, ← htailParts, htrimmed]
    · rw [← htrimmed, trim, trimEnd_trimEnd]
  · rw [slice?, hslice, Option.bind_some, hslice']
  · rw [enclose?, hcore]
    simp
  · intro hne
    rw [enclose?, hcore]
    simp only [List.isEmpty_iff, hne, if_false, wrap]
    cases affixes.lead <;> cases affixes.tail <;> simp [String.ofList_append, String.append_assoc]

/-- An override of two bytes at the beginning and one in another case at the end. -/
theorem one_override_per_side_accented :
    let affixes := ofAttributes (some "(") (some "and |é ") (some ")") (some " OR")
    affixes.Declared ∧ affixes.slice? " é  ça = 1  or ".toList = some "ça = 1".toList ∧
      affixes.enclose? " é  ça = 1  or " = some "( ça = 1 )" := by
  intro affixes
  have hdeclared : affixes.Declared := .ofAttributes ..
  have hcut : affixes.slice? " é  ça = 1  or ".toList = some "ça = 1".toList := by
    decide +kernel
  obtain ⟨head, gap, core, gap', tail, -, -, -, -, -, hslice, -, henclose⟩ :=
    one_override_per_side hdeclared " é  ça = 1  or "
  obtain rfl : "ça = 1".toList = core := Option.some.inj (hcut.symm.trans hslice)
  exact ⟨hdeclared, hcut, henclose (by decide)⟩

end Affixes

end SqlTemplate
