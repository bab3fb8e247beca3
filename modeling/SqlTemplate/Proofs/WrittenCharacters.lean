import Mathlib
import SqlTemplate.Markup.Reference
import SqlTemplate.Proofs.Cuts
import SqlTemplate.Text.Reading

/-!
# Characters in markup

A character stands in markup as itself or as a reference, by one of the five names or by its
number in decimal or hexadecimal digits. The ampersand is never written as itself, and neither is
the character that would end the run of text: a bracket in content, the quote around a value.
Between the parts of what is written there may be white space, which readers pass over.

## Main definitions

* `Text.IsGap` : white space between parts.
* `Text.IsNumeral` : digits stand for a number.
* `Markup.Refers` : what stands between an ampersand and a semicolon refers to a character.
* `Markup.WritesRun` : a run of characters, each written in one of its ways.

## Main results

* `Text.skipGap_append` : white space is passed over up to what follows it.
* `Markup.WritesRun.decode_eq` : a run is decoded as what it was written from.
* `Markup.WritesRun.exists_of` : every text has a run.
-/

namespace SqlTemplate

namespace Text

/-! ### White space between parts -/

/-- White space between parts, which may be absent. -/
def IsGap (s : List Char) : Prop :=
  ∀ c ∈ s, isGap c = true

instance (s : List Char) : Decidable (IsGap s) :=
  List.decidableBAll (fun c => isGap c = true) s

theorem IsGap.nil : IsGap [] :=
  List.forall_mem_nil _

theorem skipGap_append {g s : List Char} (hg : IsGap g) (hs : ∀ c ∈ s.head?, isGap c = false) :
    skipGap (g ++ s) = s :=
  (takeWhile_dropWhile_append hg hs).2

/-! ### Numerals -/

/-- A digit of a base, if it is a letter in either case, and its value. -/
def IsDigit (base : Nat) (c : Char) (v : Nat) : Prop :=
  v < base ∧ (c = v.digitChar ∨ c = v.digitChar.toUpper)

instance (base : Nat) (c : Char) (v : Nat) : Decidable (IsDigit base c v) :=
  inferInstanceAs (Decidable (v < base ∧ (c = v.digitChar ∨ c = v.digitChar.toUpper)))

/-- One digit of a base or more stand for a number. -/
inductive IsNumeral (base : Nat) : List Char → Nat → Prop
  | digit {c : Char} {v : Nat} : IsDigit base c v → IsNumeral base [c] v
  | append {s : List Char} {n : Nat} {c : Char} {v : Nat} :
      IsNumeral base s n → IsDigit base c v → IsNumeral base (s ++ [c]) (base * n + v)

/-- The bases in which a reference can be written. -/
def IsBase (base : Nat) : Prop := base = 10 ∨ base = 16

section

variable {base : Nat}

theorem IsDigit.digitValue? {c : Char} {v : Nat} (hbase : IsBase base) (h : IsDigit base c v) :
    digitValue? base c = some v := by
  obtain ⟨hv, hc⟩ := h
  have hten : ∀ v < 10, Text.digitValue? 10 v.digitChar = some v ∧
      Text.digitValue? 10 v.digitChar.toUpper = some v := by decide
  have hsixteen : ∀ v < 16, Text.digitValue? 16 v.digitChar = some v ∧
      Text.digitValue? 16 v.digitChar.toUpper = some v := by decide
  rcases hbase with rfl | rfl
  · rcases hc with rfl | rfl
    exacts [(hten v hv).1, (hten v hv).2]
  · rcases hc with rfl | rfl
    exacts [(hsixteen v hv).1, (hsixteen v hv).2]

theorem IsDigit.isAlphanum {c : Char} {v : Nat} (hbase : IsBase base) (h : IsDigit base c v) :
    c.isAlphanum = true := by
  obtain ⟨hv, hc⟩ := h
  have hall : ∀ v < 16, v.digitChar.isAlphanum = true ∧ v.digitChar.toUpper.isAlphanum = true := by
    decide
  have hlt : v < 16 := by rcases hbase with rfl | rfl <;> omega
  rcases hc with rfl | rfl
  exacts [(hall v hlt).1, (hall v hlt).2]

namespace IsNumeral

variable {s : List Char} {n : Nat}

theorem ne_nil (h : IsNumeral base s n) : s ≠ [] := by
  cases h <;> simp

theorem exists_isDigit (h : IsNumeral base s n) : ∀ c ∈ s, ∃ v, IsDigit base c v := by
  induction h with
  | digit hc =>
    intro d hd
    obtain rfl := List.mem_singleton.1 hd
    exact ⟨_, hc⟩
  | append _ hc ih =>
    intro d hd
    rcases List.mem_append.1 hd with hd | hd
    · exact ih d hd
    · obtain rfl := List.mem_singleton.1 hd
      exact ⟨_, hc⟩

theorem isAlphanum (hbase : IsBase base) (h : IsNumeral base s n) :
    ∀ c ∈ s, c.isAlphanum = true := by
  intro c hc
  obtain ⟨v, hv⟩ := h.exists_isDigit c hc
  exact hv.isAlphanum hbase

theorem digits? (hbase : IsBase base) (h : IsNumeral base s n) :
    digits? base s = some n := by
  induction h with
  | digit hc => simp [Text.digits?, hc.digitValue? hbase]
  | append _ hc ih =>
    rw [Text.digits?] at ih ⊢
    simp [List.foldlM_append, ih, hc.digitValue? hbase]

/-- A numeral has no sign in front. -/
theorem natural? (hbase : IsBase base) (h : IsNumeral base s n) :
    natural? base s = some n := by
  have hsign : ∀ t, s ≠ '+' :: t := by
    rintro t rfl
    exact absurd (h.isAlphanum hbase '+' List.mem_cons_self) (by decide)
  rw [Text.natural?, h.digits? hbase]
  · exact h.ne_nil
  · exact hsign

/-- Every number has a numeral. -/
theorem exists_of (hbase : IsBase base) (n : Nat) : ∃ s, IsNumeral base s n := by
  have hpos : 1 < base := by rcases hbase with rfl | rfl <;> omega
  induction n using Nat.strongRecOn with
  | ind n ih =>
    by_cases hn : n < base
    · exact ⟨_, .digit ⟨hn, Or.inl rfl⟩⟩
    · obtain ⟨s, hs⟩ := ih (n / base) (Nat.div_lt_self (by omega) hpos)
      have happend := hs.append ⟨Nat.mod_lt n (by omega), Or.inl rfl⟩
      rw [Nat.div_add_mod] at happend
      exact ⟨_, happend⟩

end IsNumeral

end

end Text

namespace Markup

open Text

/-! ### References -/

/-- The references by name. -/
def referenceNames : List (Char × String) :=
  [('<', "lt"), ('>', "gt"), ('&', "amp"), ('"', "quot"), ('\'', "apos")]

/-- What stands between an ampersand and a semicolon refers to a character. -/
inductive Refers (c : Char) : List Char → Prop
  | named {name : String} : (c, name) ∈ referenceNames → Refers c name.toList
  | decimal {digits : List Char} : IsNumeral 10 digits c.toNat → Refers c ('#' :: digits)
  | hexadecimal {x : Char} {digits : List Char} :
      x = 'x' ∨ x = 'X' → IsNumeral 16 digits c.toNat → Refers c ('#' :: x :: digits)

/-- A character is written as itself, or as a reference. The kept character is not written as
itself, and the ampersand never is. -/
inductive WritesChar (kept c : Char) : List Char → Prop
  | raw : c ≠ '&' → c ≠ kept → WritesChar kept c [c]
  | reference {name : List Char} : Refers c name → WritesChar kept c ('&' :: (name ++ [';']))

/-- Neither this character nor a reference occurs in a text. -/
def Lacks (c : Char) (s : String) : Prop :=
  ∀ d ∈ s.toList, d ≠ c ∧ d ≠ '&'

instance (c : Char) (s : String) : Decidable (Lacks c s) :=
  List.decidableBAll (fun d => d ≠ c ∧ d ≠ '&') s.toList

/-- A run of characters, each written in one of its ways. -/
inductive WritesRun (kept : Char) : List Char → List Char → Prop
  | nil : WritesRun kept [] []
  | cons {c : Char} {u s w : List Char} :
      WritesChar kept c u → WritesRun kept s w → WritesRun kept (c :: s) (u ++ w)

theorem charOf?_toNat (c : Char) : charOf? c.toNat = some c := by
  have hvalid : c.toNat.isValidChar := c.valid
  rw [charOf?, if_pos hvalid, Char.ofNat_toNat]

theorem toNat_lt (c : Char) : c.toNat < 0x100000000 := by
  have := c.valid
  simp only [UInt32.isValidChar, Nat.isValidChar] at this
  change c.val.toNat < _
  omega

/-- A reference by number is none of those by name. -/
theorem ofList_number_ne {name : String} (hname : name.toList.head? ≠ some '#') (s : List Char) :
    String.ofList ('#' :: s) ≠ name := by
  rintro rfl
  exact hname (by rw [String.toList_ofList]; rfl)

theorem referenced?_decimal {s : List Char} (hs : ∀ x t, s = x :: t → x ≠ 'x' ∧ x ≠ 'X') :
    referenced? ('#' :: s) = (word32? s).bind charOf? := by
  rw [referenced?]
  · split
    iterate 5 exact absurd ‹_› (ofList_number_ne (by decide) s)
    rfl
  · exact fun t ht => (hs _ t ht).1 rfl
  · exact fun t ht => (hs _ t ht).2 rfl

theorem referenced?_hexadecimal {x : Char} (hx : x = 'x' ∨ x = 'X') (s : List Char) :
    referenced? ('#' :: x :: s) =
      ((natural? 16 s).filter (· < 0x100000000)).bind charOf? := by
  rcases hx with rfl | rfl
  · rw [referenced?]
    split
    iterate 5 exact absurd ‹_› (ofList_number_ne (by decide) _)
    rfl
  · rw [referenced?]
    split
    iterate 5 exact absurd ‹_› (ofList_number_ne (by decide) _)
    rfl

namespace Refers

variable {c : Char} {name : List Char}

/-- The name or the number of a reference holds no character with a meaning of its own. -/
theorem isAlphanum_or (h : Refers c name) : ∀ d ∈ name, d = '#' ∨ d.isAlphanum = true := by
  cases h with
  | @named name hname =>
    have hall : referenceNames.all (fun a => a.2.toList.all Char.isAlphanum) = true := by decide
    exact fun d hd => Or.inr (List.all_eq_true.1 (List.all_eq_true.1 hall _ hname) d hd)
  | decimal hdigits =>
    intro d hd
    rcases List.mem_cons.1 hd with rfl | hd
    · exact Or.inl rfl
    · exact Or.inr (hdigits.isAlphanum (Or.inl rfl) d hd)
  | hexadecimal hx hdigits =>
    intro d hd
    rcases List.mem_cons.1 hd with rfl | hd
    · exact Or.inl rfl
    rcases List.mem_cons.1 hd with rfl | hd
    · rcases hx with rfl | rfl <;> exact Or.inr (by decide)
    · exact Or.inr (hdigits.isAlphanum (Or.inr rfl) d hd)

theorem not_mem (h : Refers c name) {d : Char} (hne : d ≠ '#') (hd : d.isAlphanum = false) :
    d ∉ name := by
  intro hmem
  rcases h.isAlphanum_or d hmem with rfl | halpha
  · exact hne rfl
  · rw [hd] at halpha
    cases halpha

theorem referenced? (h : Refers c name) : referenced? name = some c := by
  cases h with
  | @named name hname =>
    have hall : ∀ a ∈ referenceNames, Markup.referenced? a.2.toList = some a.1 := by decide
    exact hall _ hname
  | @decimal digits hdigits =>
    have hword : word32? digits = some c.toNat := by
      simp [word32?, naturalBelow?, hdigits.natural? (Or.inl rfl), toNat_lt]
    -- Neither of the letters that announce hexadecimal digits is a decimal one.
    have hletter : ∀ v < 10, v.digitChar ≠ 'x' ∧ v.digitChar ≠ 'X' ∧
        v.digitChar.toUpper ≠ 'x' ∧ v.digitChar.toUpper ≠ 'X' := by decide
    rw [referenced?_decimal, hword, Option.bind_some, charOf?_toNat]
    rintro x t rfl
    obtain ⟨v, hv, hx⟩ := hdigits.exists_isDigit x List.mem_cons_self
    obtain ⟨h₁, h₂, h₃, h₄⟩ := hletter v hv
    rcases hx with rfl | rfl
    exacts [⟨h₁, h₂⟩, ⟨h₃, h₄⟩]
  | @hexadecimal x digits hx hdigits =>
    have hnumber : (Text.natural? 16 digits).filter (· < 0x100000000) = some c.toNat := by
      simp [hdigits.natural? (Or.inr rfl), toNat_lt]
    rw [referenced?_hexadecimal hx, hnumber, Option.bind_some, charOf?_toNat]

end Refers

/-! ### Runs -/

theorem decode_cons {c : Char} {s : List Char} (hc : c ≠ '&') :
    decode (c :: s) = c :: decode s := by
  have hnone : reference? (c :: s) = none := by
    rw [reference?]
    rintro t ht
    exact hc (List.cons.inj ht).1
  rw [decode]
  split
  · rename_i hsome
    rw [hnone] at hsome
    cases hsome
  · rfl

theorem decode_reference {c : Char} {name s : List Char} (h : Refers c name) :
    decode ('&' :: (name ++ ';' :: s)) = c :: decode s := by
  have hsome : reference? ('&' :: (name ++ ';' :: s)) = some (c, s) := by
    rw [reference?, cutAtChar?_append (h.not_mem (by decide) (by decide))]
    simp [h.referenced?]
  rw [decode]
  split
  · rename_i d rest hdecoded
    obtain ⟨rfl, rfl⟩ := Prod.mk.inj (Option.some.inj (hsome.symm.trans hdecoded))
    rfl
  · rename_i hnone
    rw [hsome] at hnone
    cases hnone

namespace WritesRun

variable {kept : Char} {s w : List Char}

/-- A run is decoded as what it was written from. -/
theorem decode_eq (h : WritesRun kept s w) : decode w = s := by
  induction h with
  | nil => rw [decode]
  | cons hc _ ih =>
    cases hc with
    | raw hc _ => rw [List.singleton_append, decode_cons hc, ih]
    | reference hname =>
      rw [List.cons_append, List.append_assoc, List.singleton_append, decode_reference hname, ih]

/-- The kept character does not occur in a run, unless references need it. -/
theorem not_mem (hkept : kept.isAlphanum = false) (href : kept ∉ ['&', '#', ';'])
    (h : WritesRun kept s w) : kept ∉ w := by
  induction h with
  | nil => exact List.not_mem_nil
  | cons hc _ ih =>
    refine fun hmem => (List.mem_append.1 hmem).elim (fun hmem => ?_) ih
    simp only [List.mem_cons, List.not_mem_nil, or_false, not_or] at href
    cases hc with
    | raw _ hne => exact hne (List.mem_singleton.1 hmem).symm
    | reference hname =>
      simp only [List.mem_cons, List.mem_append, List.not_mem_nil, or_false] at hmem
      rcases hmem with hmem | hmem | hmem
      · exact href.1 hmem
      · exact hname.not_mem href.2.1 hkept hmem
      · exact href.2.2 hmem

theorem append {s' w' : List Char} (h : WritesRun kept s w) (h' : WritesRun kept s' w') :
    WritesRun kept (s ++ s') (w ++ w') := by
  induction h with
  | nil => exact h'
  | cons hc _ ih =>
    rw [List.append_assoc]
    exact .cons hc ih

/-- A text with none of the characters that are kept can be written as it stands. -/
theorem of_lacks {text : String} (h : Lacks kept text) :
    WritesRun kept text.toList text.toList := by
  rw [Lacks] at h
  generalize text.toList = l at h ⊢
  induction l with
  | nil => exact .nil
  | cons c rest ih =>
    obtain ⟨hkept, hamp⟩ := h c List.mem_cons_self
    exact .cons (.raw hamp hkept) (ih fun d hd => h d (List.mem_cons_of_mem _ hd))

end WritesRun

/-- Every character has a reference. -/
theorem WritesChar.exists_of (kept c : Char) : ∃ u, WritesChar kept c u := by
  obtain ⟨digits, hdigits⟩ := IsNumeral.exists_of (Or.inl rfl) c.toNat
  exact ⟨_, .reference (.decimal hdigits)⟩

/-- Every text has a run. -/
theorem WritesRun.exists_of (kept : Char) (s : List Char) : ∃ w, WritesRun kept s w := by
  induction s with
  | nil => exact ⟨[], .nil⟩
  | cons c s ih =>
    obtain ⟨w, hw⟩ := ih
    obtain ⟨u, hu⟩ := WritesChar.exists_of kept c
    exact ⟨u ++ w, .cons hu hw⟩

end Markup

end SqlTemplate
