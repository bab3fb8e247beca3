import SqlTemplate.Proofs.Cuts
import SqlTemplate.Proofs.PathCuts
import SqlTemplate.Proofs.WrittenCharacters

/-!
# The grammar of mappings

The body of a placeholder is cut at its commas. The first part names the property, up to a colon,
and each later part sets an attribute: a name, an equality sign and a value, with blanks around
both. This file says which bodies have a mapping (`Mapping.IsBody`) and what the mapping is
(`Mapping.said`): each field is read off the last part that sets its attribute, so that parts that
set different attributes may stand in any order.

## Main definitions

* `Text.IsNatural` : a natural number as it is written, with or without a plus sign.
* `Mapping.Assigns` : a part sets an attribute to a value.
* `Mapping.lastValue?` : the value that the last of some parts sets an attribute to.
* `Mapping.IsBody` : the bodies of placeholders.
* `Mapping.said` : the mapping that a body says.

## Main results

* `Text.natural?_eq_some_iff` : reading a natural number.
* `ParameterMode.ofName?_eq_some_iff` : modes are named in letters of either case.
* `Mapping.foldlM_setPart_eq_ok_iff` : a run over parts succeeds and what it sets.
* `Mapping.parse_eq_ok_iff` : the bodies that have a mapping, and their mappings.
* `Mapping.SetApart.lastValue?_perm` : what parts set that stand in another order.
* `Mapping.mapping_of_grammar` : all of it, for every body and hint.
-/

namespace SqlTemplate

open Text

namespace Text

variable {s : List Char} {n : Nat}

/-! ### Cuts -/

/-- Blanks at the ends of a text do not move a cut at a character that is not blank. -/
theorem cutAtChar?_trim {c : Char} (hc : isBlank c = false) (s : List Char) :
    cutAtChar? c (trim s) = (cutAtChar? c s).map (Prod.map trimStart trimEnd) := by
  have hfree (t : List Char) : c ∉ t → c ∉ trimStart t :=
    mt fun h => (List.dropWhile_sublist _).subset h
  cases hcut : cutAtChar? c s with
  | none =>
    rw [cutAtChar?, cutAt?_eq_none_iff, List.singleton_infix_iff] at hcut
    rw [cutAtChar?, cutAt?_eq_none_iff.2]
    · rfl
    · rw [List.singleton_infix_iff]
      exact fun h => hcut ((trim_sublist s).subset h)
  | some cut =>
    obtain ⟨left, right⟩ := cut
    have hleft : c ∉ left := fun h =>
      not_infix_of_cutAt? (List.cons_ne_nil c []) hcut ((List.singleton_infix_iff _ _).2 h)
    have hs : s = left ++ c :: right := by
      simpa using eq_of_cutAt? hcut
    have htrim : trim s = trimStart left ++ c :: trimEnd right := by
      have hstart : trimStart s = trimStart left ++ [c] ++ right := by
        rw [hs, trimStart, List.dropWhile_append]
        split <;> simp_all [trimStart]
      rw [trim, hstart, trimEnd_append List.getLast?_concat hc, List.append_assoc,
        List.singleton_append]
    rw [htrim, cutAtChar?_append (hfree left hleft)]
    rfl

/-! ### Numbers -/

/-- A natural number as it is written: digits, or a plus sign and digits. -/
def IsNatural (s : List Char) (n : Nat) : Prop :=
  ∃ digits, IsNumeral 10 digits n ∧ (s = digits ∨ s = '+' :: digits)

theorem isDigit_of_digitValue? {c : Char} (h : digitValue? 10 c = some n) : IsDigit 10 c n := by
  by_cases hc : c.isDigit = true
  · have hrange : 48 ≤ c.toNat ∧ c.toNat ≤ 57 := by
      simpa [Char.isDigit, UInt32.le_iff_toNat_le] using hc
    rw [digitValue?, if_pos hc, show '0'.toNat = 48 from rfl, if_pos (by omega)] at h
    obtain rfl := Option.some.inj h
    have hall : ∀ v < 10, Char.ofNat (v + 48) = v.digitChar := by
      decide
    have hchar := hall (c.toNat - 48) (by omega)
    rw [Nat.sub_add_cancel hrange.1, Char.ofNat_toNat] at hchar
    exact ⟨by omega, .inl hchar⟩
  · -- Letters have values from ten on, and other characters have none.
    rw [digitValue?, if_neg hc] at h
    split at h
    · rw [if_neg (by omega)] at h
      cases h
    · split at h <;> rw [if_neg (by omega)] at h <;> cases h

theorem digits?_concat (base : Nat) (s : List Char) (c : Char) :
    digits? base (s ++ [c]) =
      (digits? base s).bind fun n => (digitValue? base c).map (base * n + ·) := by
  rw [digits?, digits?, List.foldlM_append]
  refine congrArg (Option.bind _) (funext fun n => ?_)
  rw [List.foldlM_cons]
  cases digitValue? base c <;> rfl

theorem isNumeral_of_digits? (hs : s ≠ []) (h : digits? 10 s = some n) : IsNumeral 10 s n := by
  induction s using List.reverseRecOn generalizing n with
  | nil => exact absurd rfl hs
  | append_singleton s c ih =>
    rw [digits?_concat] at h
    obtain ⟨front, hfront, h⟩ := Option.bind_eq_some_iff.1 h
    obtain ⟨v, hv, rfl⟩ := Option.map_eq_some_iff.1 h
    have hdigit := isDigit_of_digitValue? hv
    by_cases hs : s = []
    · subst hs
      obtain rfl := Option.some.inj hfront
      simpa using IsNumeral.digit hdigit
    · exact (ih hs hfront).append hdigit

/-- A natural number is read where it is written. -/
theorem natural?_eq_some_iff : natural? 10 s = some n ↔ IsNatural s n := by
  constructor
  · intro h
    rw [natural?.eq_def] at h
    split at h
    · cases h
    · rename_i digits
      split at h
      · cases h
      · rename_i hne
        exact ⟨digits, isNumeral_of_digits? (by simpa using hne) h, .inr rfl⟩
    · rename_i hne _
      exact ⟨s, isNumeral_of_digits? hne h, .inl rfl⟩
  · rintro ⟨digits, hdigits, rfl | rfl⟩
    · exact hdigits.natural? (.inl rfl)
    · rw [natural?, if_neg (by simpa using hdigits.ne_nil), hdigits.digits? (.inl rfl)]

/-- A number of 32 bits is a natural number that is small enough. -/
theorem word32?_eq_some_iff : word32? s = some n ↔ IsNatural s n ∧ n < 0x100000000 := by
  rw [word32?, naturalBelow?, Option.filter_eq_some_iff, natural?_eq_some_iff, decide_eq_true_iff]

/-! ### Letter case -/

/-- Texts that agree in upper case are those that agree in lower case. -/
theorem asciiUpper_eq_iff {t : List Char} :
    asciiUpper s = asciiUpper t ↔ asciiLower s = asciiLower t := by
  have hlower (s : List Char) : asciiLower (asciiUpper s) = asciiLower s := by
    simp [asciiLower, asciiUpper]
  have hupper (s : List Char) : asciiUpper (asciiLower s) = asciiUpper s := by
    simp [asciiLower, asciiUpper]
  exact ⟨fun h => by rw [← hlower s, h, hlower], fun h => by rw [← hupper s, h, hupper]⟩

end Text

/-- Modes are named in letters of either case. -/
theorem ParameterMode.ofName?_eq_some_iff {name : String} {mode : ParameterMode} :
    ofName? name = some mode ↔ sameIgnoringCase name mode.name = true := by
  have hname : asciiUpper mode.name.toList = mode.name.toList := by
    cases mode <;> decide +kernel
  have hcase : sameIgnoringCase name mode.name = true ↔ mapChars asciiUpper name = mode.name := by
    rw [sameIgnoringCase, beq_iff_eq, ← asciiUpper_eq_iff, hname, ← String.toList_inj,
      toList_mapChars]
  rw [hcase, ofName?]
  split <;> cases mode <;> simp_all [ParameterMode.name]

namespace Mapping

/-! ### The parts of a body -/

/-- What stands before the first comma of a body. -/
def firstPart (content : String) : List Char :=
  content.toList.takeWhile (· != ',')

/-- What stands behind the first comma of a body, between commas. -/
def laterParts (content : String) : List (List Char) :=
  (content.toList.splitOn ',').tail

theorem splitOn_eq (content : String) :
    content.toList.splitOn ',' = firstPart content :: laterParts content := by
  obtain ⟨tail, h⟩ := exists_splitOn_eq ',' content.toList
  rw [laterParts, h, List.tail_cons, firstPart]

/-- The property that the first part names, up to a colon. -/
def namedProperty (part : List Char) : String :=
  .ofList (trim (part.takeWhile (· != ':')))

/-- The type that the first part names behind a colon, if it has one. -/
def namedType? (part : List Char) : Option String :=
  if ':' ∈ part then some (.ofList (trim (part.dropWhile (· != ':')).tail)) else none

theorem head_eq (part : List Char) : head part = (namedProperty part, namedType? part) := by
  rw [head, cutAtChar?_trim (by decide), namedProperty, namedType?]
  cases hcut : cutAtChar? ':' part with
  | none =>
    rw [cutAtChar?, cutAt?_eq_none_iff, List.singleton_infix_iff] at hcut
    have hall : ∀ c ∈ part, (c != ':') = true := fun c hc => by
      rw [bne_iff_ne]
      exact fun h => hcut (h ▸ hc)
    rw [if_neg hcut, List.takeWhile_eq_self_iff.2 hall]
    rfl
  | some cut =>
    obtain ⟨left, right⟩ := cut
    have hpart : part = left ++ ':' :: right := by
      simpa using eq_of_cutAt? hcut
    have hleft : ∀ c ∈ left, (c != ':') = true := fun c hc => by
      rw [bne_iff_ne]
      rintro rfl
      exact not_infix_of_cutAt? (List.cons_ne_nil ':' []) hcut ((List.singleton_infix_iff _ _).2 hc)
    have hsplit := takeWhile_dropWhile_append hleft (t := ':' :: right) (by simp)
    rw [hpart, if_pos (by simp), hsplit.1, hsplit.2]
    simp only [Option.map_some, Prod.map, trim_trimStart, trim_trimEnd, List.tail_cons]

/-! ### Attributes -/

/-- The names of the attributes. -/
def attributeNames : List String :=
  ["javaType", "jdbcType", "mode", "numericScale", "resultMap", "typeHandler", "jdbcTypeName"]

/-- A part sets an attribute to a value: the name stands before the first equality sign and the
value behind it, both with blanks around them. -/
def Assigns (part : List Char) (name value : String) : Prop :=
  ∃ left right, part = left ++ '=' :: right ∧ '=' ∉ left ∧
    .ofList (trim left) = name ∧ .ofList (trim right) = value

/-- The value that a part sets an attribute to. -/
def value? (part : List Char) (name : String) : Option String :=
  (cutAtChar? '=' part).bind fun cut =>
    if .ofList (trim cut.1) = name then some (.ofList (trim cut.2)) else none

/-- The value that the last of some parts sets an attribute to. -/
def lastValue? : List (List Char) → String → Option String
  | [], _ => none
  | part :: rest, name => (lastValue? rest name).or (value? part name)

/-- The last of some parts that sets an attribute sets it to a value. -/
def LastAssigns (parts : List (List Char)) (name value : String) : Prop :=
  ∃ front part back, parts = front ++ part :: back ∧ Assigns part name value ∧
    ∀ p ∈ back, ∀ v, ¬ Assigns p name v

/-- Some parts set attributes that are all different. -/
def SetApart (parts : List (List Char)) : Prop :=
  parts.Pairwise fun p q => ∀ name v w, Assigns p name v → ¬ Assigns q name w

variable {part : List Char} {parts : List (List Char)} {name value : String}

theorem value?_eq_some_iff : value? part name = some value ↔ Assigns part name value := by
  rw [value?, Option.bind_eq_some_iff]
  constructor
  · rintro ⟨⟨left, right⟩, hcut, h⟩
    split at h
    · rename_i hname
      refine ⟨left, right, by simpa using eq_of_cutAt? hcut, fun hmem => ?_, hname,
        Option.some.inj h⟩
      exact not_infix_of_cutAt? (List.cons_ne_nil '=' []) hcut
        ((List.singleton_infix_iff _ _).2 hmem)
    · cases h
  · rintro ⟨left, right, rfl, hleft, rfl, rfl⟩
    exact ⟨(left, right), cutAtChar?_append hleft, if_pos rfl⟩

/-- A part sets one attribute, and to one value. -/
theorem Assigns.unique {name' value' : String} (h : Assigns part name value)
    (h' : Assigns part name' value') : name = name' ∧ value = value' := by
  obtain ⟨left, right, rfl, hleft, rfl, rfl⟩ := h
  obtain ⟨left', right', hsplit, hleft', rfl, rfl⟩ := h'
  have hcut := cutAtChar?_append (t := right) hleft
  rw [hsplit, cutAtChar?_append hleft'] at hcut
  obtain ⟨rfl, rfl⟩ := Prod.mk.inj (Option.some.inj hcut)
  exact ⟨rfl, rfl⟩

theorem lastValue?_eq_none_iff :
    lastValue? parts name = none ↔ ∀ p ∈ parts, ∀ v, ¬ Assigns p name v := by
  induction parts with
  | nil => simp [lastValue?]
  | cons part rest ih =>
    rw [lastValue?, Option.or_eq_none_iff, ih, List.forall_mem_cons, and_comm]
    refine and_congr_left' ?_
    rw [Option.eq_none_iff_forall_ne_some]
    exact forall_congr' fun v => not_congr value?_eq_some_iff

/-- The last value is the one of the last part that sets the attribute. -/
theorem lastValue?_eq_some_iff :
    lastValue? parts name = some value ↔ LastAssigns parts name value := by
  induction parts with
  | nil => simp [lastValue?, LastAssigns]
  | cons part rest ih =>
    rw [lastValue?, Option.or_eq_some_iff, ih, value?_eq_some_iff, lastValue?_eq_none_iff]
    constructor
    · rintro (⟨front, p, back, rfl, hp, hback⟩ | ⟨hnone, hpart⟩)
      · exact ⟨part :: front, p, back, rfl, hp, hback⟩
      · exact ⟨[], part, rest, rfl, hpart, hnone⟩
    · rintro ⟨front, p, back, hparts, hp, hback⟩
      cases front with
      | nil =>
        obtain ⟨rfl, rfl⟩ := List.cons.inj hparts
        exact .inr ⟨hback, hp⟩
      | cons first front => exact .inl ⟨front, p, back, (List.cons.inj hparts).2, hp, hback⟩

/-- Where the attributes are different, each part that sets one is the last that does. -/
theorem SetApart.lastValue?_eq_some_iff (h : SetApart parts) :
    lastValue? parts name = some value ↔ ∃ part ∈ parts, Assigns part name value := by
  induction parts with
  | nil => simp [lastValue?]
  | cons part rest ih =>
    obtain ⟨hfirst, hrest⟩ := List.pairwise_cons.1 h
    rw [lastValue?, Option.or_eq_some_iff, ih hrest, value?_eq_some_iff, lastValue?_eq_none_iff,
      List.exists_mem_cons_iff, or_comm]
    refine or_congr_left (and_iff_right_of_imp fun hpart p hp v hv => ?_)
    exact hfirst p hp name value v hpart hv

/-- Parts that set different attributes set the same in every order. -/
theorem SetApart.lastValue?_perm {parts' : List (List Char)} (h : SetApart parts)
    (hperm : parts'.Perm parts) : lastValue? parts' = lastValue? parts := by
  have hsymm {p q : List Char} (hpq : ∀ name v w, Assigns p name v → ¬ Assigns q name w)
      (name v w : String) (hq : Assigns q name v) : ¬ Assigns p name w :=
    fun hp => hpq name w v hp hq
  have h' : SetApart parts' := (hperm.pairwise_iff fun hpq => hsymm hpq).2 h
  refine funext fun name => Option.ext fun value => ?_
  rw [h'.lastValue?_eq_some_iff, h.lastValue?_eq_some_iff]
  simp only [hperm.mem_iff]

/-! ### Setting attributes -/

/-- A value that an attribute may have: a mode is one of the three, and a scale is a number of 32
bits. -/
structure IsAttribute (name value : String) : Prop where
  known : name ∈ attributeNames
  mode : name = "mode" → ∃ mode : ParameterMode, sameIgnoringCase value mode.name = true
  scale : name = "numericScale" → ∃ n, IsNatural value.toList n ∧ n < 0x100000000

/-- A part sets an attribute to a value that it may have. -/
def SetsAttribute (part : List Char) : Prop :=
  ∃ name value, Assigns part name value ∧ IsAttribute name value

/-- The mapping with each field set for which there is a value. -/
def assigned (m : Mapping) (value? : String → Option String) : Mapping where
  property := m.property
  jdbcType := (value? "jdbcType").or m.jdbcType
  javaType := (value? "javaType").or m.javaType
  mode := ((value? "mode").bind ParameterMode.ofName?).getD m.mode
  numericScale := ((value? "numericScale").bind fun v => word32? v.toList).or m.numericScale
  typeHandler := (value? "typeHandler").or m.typeHandler

theorem setAttribute_eq_ok_iff {m m' : Mapping} :
    m.setAttribute name value = .ok m' ↔
      IsAttribute name value ∧
        m' = m.assigned fun n => if name = n then some value else none := by
  have hplain (hname : name ∈ attributeNames) (hmode : name ≠ "mode")
      (hscale : name ≠ "numericScale") : IsAttribute name value :=
    ⟨hname, fun h => absurd h hmode, fun h => absurd h hscale⟩
  unfold setAttribute
  split
  case h_3 =>
    have hmode : IsAttribute "mode" value ↔
        ∃ mode, ParameterMode.ofName? value = some mode := by
      simp only [ParameterMode.ofName?_eq_some_iff]
      exact ⟨fun h => h.mode rfl,
        fun h => ⟨by decide, fun _ => h, fun h' => absurd h' (by decide)⟩⟩
    rw [hmode]
    cases hread : ParameterMode.ofName? value <;> simp [assigned, hread, eq_comm]
  case h_4 =>
    have hscale : IsAttribute "numericScale" value ↔ ∃ n, word32? value.toList = some n := by
      simp only [word32?_eq_some_iff]
      exact ⟨fun h => h.scale rfl,
        fun h => ⟨by decide, fun h' => absurd h' (by decide), fun _ => h⟩⟩
    rw [hscale]
    cases hread : word32? value.toList <;> simp [assigned, hread, eq_comm]
  case h_8 hjdbc hjava hmode hscale hhandler hresult hname =>
    refine ⟨fun h => (nomatch h), fun h => False.elim ?_⟩
    have hknown := h.1.known
    simp only [attributeNames, List.mem_cons, List.not_mem_nil, or_false] at hknown
    rcases hknown with h | h | h | h | h | h | h
    exacts [hjava h, hjdbc h, hmode h, hscale h, hresult h, hhandler h, hname h]
  all_goals
    rw [and_iff_right (hplain (by decide) (by decide) (by decide)), Except.ok.injEq, eq_comm]
    rfl

theorem setPart_eq_ok_iff {m m' : Mapping} :
    m.setPart part = .ok m' ↔ SetsAttribute part ∧ m' = m.assigned (value? part) := by
  rw [setPart, SetsAttribute]
  cases hcut : cutAtChar? '=' part with
  | none =>
    refine ⟨fun h => (nomatch h), ?_⟩
    rintro ⟨⟨name, value, hassigns, -⟩, -⟩
    have hvalue := value?_eq_some_iff.2 hassigns
    rw [value?, hcut] at hvalue
    cases hvalue
  | some cut =>
    have hassigns (name value : String) : Assigns part name value ↔
        .ofList (trim cut.1) = name ∧ .ofList (trim cut.2) = value := by
      rw [← value?_eq_some_iff, value?, hcut, Option.bind_some]
      simp
    have hvalue : value? part = fun n =>
        if .ofList (trim cut.1) = n then some (.ofList (trim cut.2)) else none := by
      funext n
      rw [value?, hcut, Option.bind_some]
    simp only [setAttribute_eq_ok_iff, hassigns, hvalue, and_assoc, exists_and_left,
      exists_eq_left']

theorem assigned_assigned (m : Mapping) {f g : String → Option String}
    (hmode : ∀ v, g "mode" = some v → ∃ mode, ParameterMode.ofName? v = some mode)
    (hscale : ∀ v, g "numericScale" = some v → ∃ n, word32? v.toList = some n) :
    (m.assigned f).assigned g = m.assigned fun n => (g n).or (f n) := by
  have hmodes : ((g "mode").bind ParameterMode.ofName?).getD (m.assigned f).mode =
      (((g "mode").or (f "mode")).bind ParameterMode.ofName?).getD m.mode := by
    cases hg : g "mode" with
    | none => rfl
    | some v =>
      obtain ⟨mode, hread⟩ := hmode v hg
      simp [hread]
  have hscales : ((g "numericScale").bind fun v => word32? v.toList).or
      (m.assigned f).numericScale =
      (((g "numericScale").or (f "numericScale")).bind fun v => word32? v.toList).or
        m.numericScale := by
    cases hg : g "numericScale" with
    | none => rfl
    | some v =>
      obtain ⟨n, hread⟩ := hscale v hg
      simp [hread]
  rw [assigned, hmodes, hscales]
  simp only [assigned, Option.or_assoc]

/-- **A run over parts** succeeds if each sets an attribute to a value that it may have, and then
the last value of each attribute is set. -/
theorem foldlM_setPart_eq_ok_iff {m m' : Mapping} :
    parts.foldlM setPart m = .ok m' ↔
      (∀ part ∈ parts, SetsAttribute part) ∧ m' = m.assigned (lastValue? parts) := by
  induction parts generalizing m with
  | nil =>
    have hnone : m.assigned (lastValue? []) = m := rfl
    rw [hnone]
    exact ⟨fun h => ⟨List.forall_mem_nil _, (Except.ok.inj h).symm⟩,
      fun h => congrArg Except.ok h.2.symm⟩
  | cons part rest ih =>
    have hstep (hrest : ∀ part ∈ rest, SetsAttribute part) :
        (m.assigned (value? part)).assigned (lastValue? rest) =
          m.assigned (lastValue? (part :: rest)) := by
      have hlast {name value : String} (h : lastValue? rest name = some value) :
          IsAttribute name value := by
        obtain ⟨front, p, back, rfl, hp, -⟩ := Mapping.lastValue?_eq_some_iff.1 h
        obtain ⟨name', value', hp', hattribute⟩ := hrest p (by simp)
        obtain ⟨rfl, rfl⟩ := hp.unique hp'
        exact hattribute
      refine assigned_assigned m (fun v h => ?_) fun v h => ?_
      · simpa only [ParameterMode.ofName?_eq_some_iff] using (hlast h).mode rfl
      · simpa only [word32?_eq_some_iff] using (hlast h).scale rfl
    rw [List.foldlM_cons, List.forall_mem_cons]
    constructor
    · intro h
      obtain ⟨m₁, hpart, h⟩ := exists_of_bind_eq_ok h
      obtain ⟨hsets, rfl⟩ := setPart_eq_ok_iff.1 hpart
      obtain ⟨hrest, rfl⟩ := ih.1 h
      exact ⟨⟨hsets, hrest⟩, hstep hrest⟩
    · rintro ⟨⟨hsets, hrest⟩, rfl⟩
      rw [setPart_eq_ok_iff.2 ⟨hsets, rfl⟩]
      exact ih.2 ⟨hrest, (hstep hrest).symm⟩

/-! ### Bodies -/

/-- The body of a placeholder: it names a property, and each part behind its first comma sets an
attribute, a mode to one of the three in letters of either case, a scale to a number of 32 bits. -/
structure IsBody (content : String) : Prop where
  property : ∃ c ∈ (firstPart content).takeWhile (· != ':'), isBlank c = false
  attributes : ∀ part ∈ laterParts content, ∃ name ∈ attributeNames, ∃ value,
    Assigns part name value
  modes : ∀ part ∈ laterParts content, ∀ value, Assigns part "mode" value →
    ∃ mode : ParameterMode, sameIgnoringCase value mode.name = true
  scales : ∀ part ∈ laterParts content, ∀ value, Assigns part "numericScale" value →
    ∃ n, IsNatural value.toList n ∧ n < 0x100000000

/-- The mapping that a body says under a type hint. -/
def said (content : String) (hint : Option String) : Mapping where
  property := namedProperty (firstPart content)
  jdbcType := (lastValue? (laterParts content) "jdbcType").or (namedType? (firstPart content))
  javaType := (lastValue? (laterParts content) "javaType").or (hint.filter isSimpleType)
  mode := ((lastValue? (laterParts content) "mode").bind ParameterMode.ofName?).getD .input
  numericScale := (lastValue? (laterParts content) "numericScale").bind fun v => word32? v.toList
  typeHandler := lastValue? (laterParts content) "typeHandler"

theorem isBody_iff {content : String} :
    IsBody content ↔ namedProperty (firstPart content) ≠ "" ∧
      ∀ part ∈ laterParts content, SetsAttribute part := by
  have hproperty : namedProperty (firstPart content) ≠ "" ↔
      ∃ c ∈ (firstPart content).takeWhile (· != ':'), isBlank c = false := by
    rw [namedProperty, ne_eq, ← String.toList_eq_nil_iff, String.toList_ofList, trim_eq_nil_iff]
    simp only [not_forall, Bool.not_eq_true, exists_prop]
  rw [hproperty]
  constructor
  · intro h
    refine ⟨h.property, fun part hpart => ?_⟩
    obtain ⟨name, hname, value, hassigns⟩ := h.attributes part hpart
    refine ⟨name, value, hassigns, hname, ?_, ?_⟩
    · rintro rfl
      exact h.modes part hpart value hassigns
    · rintro rfl
      exact h.scales part hpart value hassigns
  · rintro ⟨hproperty, hparts⟩
    have hattribute {part : List Char} (hpart : part ∈ laterParts content) {name value : String}
        (h : Assigns part name value) : IsAttribute name value := by
      obtain ⟨name', value', h', hattribute⟩ := hparts part hpart
      obtain ⟨rfl, rfl⟩ := h.unique h'
      exact hattribute
    refine ⟨hproperty, fun part hpart => ?_,
      fun part hpart value h => (hattribute hpart h).mode rfl,
      fun part hpart value h => (hattribute hpart h).scale rfl⟩
    obtain ⟨name, value, h, hattribute⟩ := hparts part hpart
    exact ⟨name, hattribute.known, value, h⟩

/-- The bodies that have a mapping, and their mappings. -/
theorem parse_eq_ok_iff {content : String} {hint : Option String} {m : Mapping} :
    parse content hint = .ok m ↔ IsBody content ∧ m = said content hint := by
  have hparse : parse content hint = .ok m ↔
      ∃ m₁, ofParts (firstPart content :: laterParts content) = .ok m₁ ∧
        m₁.withHint hint = m := by
    rw [parse, splitOn_eq]
    cases ofParts (firstPart content :: laterParts content) <;> simp
  have hparts (m₁ : Mapping) : ofParts (firstPart content :: laterParts content) = .ok m₁ ↔
      IsBody content ∧ m₁ = assigned ⟨namedProperty (firstPart content),
        namedType? (firstPart content), none, .input, none, none⟩
          (lastValue? (laterParts content)) := by
    rw [isBody_iff, ofParts, head_eq, and_assoc, ← foldlM_setPart_eq_ok_iff]
    by_cases hempty : namedProperty (firstPart content) = ""
    · simp [hempty]
    · simp [hempty]
  have hsaid : withHint (assigned ⟨namedProperty (firstPart content),
        namedType? (firstPart content), none, .input, none, none⟩
          (lastValue? (laterParts content))) hint = said content hint := by
    rw [withHint, said, assigned]
    cases lastValue? (laterParts content) "javaType" <;> simp
  simp only [hparse, hparts, and_assoc, exists_and_left, exists_eq_left, hsaid, eq_comm]

/-- **Mappings.** A body has a mapping exactly if it is one by the grammar, under whatever type
hint. Then the mapping is the one that the body says: each field has the value of the last part
that sets its attribute, where there is one. Parts that set different attributes may stand in any
order. -/
theorem mapping_of_grammar (content : String) (hint : Option String) :
    ((∃ m, parse content hint = .ok m) ↔ IsBody content) ∧
    (∀ m, parse content hint = .ok m → m = said content hint) ∧
    (∀ name value, lastValue? (laterParts content) name = some value ↔
      LastAssigns (laterParts content) name value) ∧
    ∀ content', firstPart content' = firstPart content →
      (laterParts content').Perm (laterParts content) → SetApart (laterParts content) →
      ∀ m, parse content' hint = .ok m ↔ parse content hint = .ok m := by
  refine ⟨?_, fun m h => (parse_eq_ok_iff.1 h).2, fun name value => lastValue?_eq_some_iff,
    fun content' hfirst hperm hapart m => ?_⟩
  · simp only [parse_eq_ok_iff, exists_and_left, exists_eq, and_true]
  · have hbody : IsBody content' ↔ IsBody content := by
      simp only [isBody_iff, hfirst, hperm.mem_iff]
    have hsaid : said content' hint = said content hint := by
      rw [said, said, hfirst, hapart.lastValue?_perm hperm]
    rw [parse_eq_ok_iff, parse_eq_ok_iff, hbody, hsaid]

/-- A mode in letters of either case and a scale with a plus sign, in both orders. -/
theorem mapping_of_grammar_price :
    let body := "price : N, mode=inOut, numericScale = +2"
    let other := "price : N, numericScale = +2, mode=inOut"
    let mapping : Mapping := {
      property := "price", jdbcType := some "N", javaType := some "int", mode := .both,
      numericScale := some 2, typeHandler := none }
    parse body (some "int") = .ok mapping ∧ parse other (some "int") = .ok mapping ∧
      IsBody body ∧ said body (some "int") = mapping := by
  intro body other mapping
  have hbody : parse body (some "int") = .ok mapping := by
    cbv
  obtain ⟨mode, scale, hparts, hother, hmode, hscale⟩ : ∃ mode scale,
      laterParts body = [mode, scale] ∧ laterParts other = [scale, mode] ∧
      value? mode "mode" = some "inOut" ∧ value? scale "numericScale" = some "+2" :=
    ⟨" mode=inOut".toList, " numericScale = +2".toList, by cbv, by cbv, by cbv, by cbv⟩
  have hapart : SetApart (laterParts body) := by
    rw [hparts, SetApart, List.pairwise_pair]
    intro name v w hv hw
    have hmode := (value?_eq_some_iff.1 hmode).unique hv
    have hscale := hw.unique (value?_eq_some_iff.1 hscale)
    exact absurd (hmode.1.trans hscale.1) (by decide)
  have hperm : (laterParts other).Perm (laterParts body) := by
    rw [hparts, hother]
    exact List.Perm.swap mode scale []
  obtain ⟨hiff, hsaid, -, horder⟩ := mapping_of_grammar body (some "int")
  exact ⟨hbody, (horder other (by cbv) hperm hapart mapping).2 hbody, hiff.1 ⟨mapping, hbody⟩,
    (hsaid mapping hbody).symm⟩

end Mapping

end SqlTemplate
