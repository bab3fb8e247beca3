import SqlTemplate.Proofs.ExpressionWriting

/-!
# Reading tokens back

A token is read from the front of a text as the token that it was written as, whatever follows,
unless what follows would continue it. A word is told from longer and shorter words by the
character behind it, a sign from a longer sign by the equals sign that the longer one ends in.

## Main results

* `Expr.oneOf?_operators` : a binary operator is read at its level, and at no tighter one.
* `Expr.unary?_operator` : a unary operator is read as such.
* `Expr.atom?_literal`, `Expr.atom?_name` : a literal and a name are read as such.
-/

namespace SqlTemplate.Expr

open Text

/-! ### Characters of tokens -/

theorem IsName.exists_cons {name : String} (h : IsName name) : ∃ c s, name.toList = c :: s ∧
    isNameStart c = true ∧ ∀ d ∈ s, isNameChar d = true := by
  obtain ⟨hhead, hall⟩ := h
  obtain ⟨c, hc, hstart⟩ := (Option.any_eq_true ..).1 hhead
  obtain ⟨s, hs⟩ := List.head?_eq_some_iff.1 hc
  exact ⟨c, s, hs, hstart, fun d hd =>
    List.all_eq_true.1 hall d (hs ▸ List.mem_cons_of_mem c hd)⟩

/-- A name is read up to a character that cannot be in it. -/
theorem anyName?_of {name : String} {s t : List Char} (hs : s = name.toList ++ t)
    (hname : IsName name) (ht : ∀ c ∈ t.head?, isNameChar c = false) :
    ∃ h, anyName? s = some ⟨name, t, h⟩ := by
  obtain ⟨c, r, hchars, hstart, hr⟩ := hname.exists_cons
  obtain ⟨htake, hdrop⟩ := takeWhile_dropWhile_append hr ht
  rw [hchars, List.cons_append] at hs
  subst hs
  refine ⟨by simp only [List.length_cons, List.length_append]; omega, ?_⟩
  rw [anyName?, if_pos hstart]
  refine congrArg some (Reading.ext ?_ hdrop)
  dsimp only
  rw [htake, ← hchars, String.ofList_toList]

/-! ### Spellings -/

namespace Spelling

/-- A token that is read as one: a word is a name, and a sign begins neither as a name nor with
white space. -/
def IsToken : Spelling → Prop
  | .word text => IsName text
  | .sign text => text.toList.head?.any (fun c => !isNameStart c && !isGap c) = true

instance : (t : Spelling) → Decidable t.IsToken
  | .word text => inferInstanceAs (Decidable (IsName text))
  | .sign _ => inferInstanceAs (Decidable (_ = true))

theorem IsToken.ne_nil {t : Spelling} (h : t.IsToken) : t.chars ≠ [] := by
  cases t with
  | word text =>
    obtain ⟨c, s, hs, -⟩ := IsName.exists_cons h
    simp [chars, hs]
  | sign text =>
    intro hnil
    rw [IsToken, show text.toList = [] from hnil] at h
    cases h

/-- A sign is read where it stands in front. -/
theorem read?_sign (text : String) (u : List Char) :
    (sign text).read? u = (match after? text.toList u with
      | none => none
      | some rest => if h : rest.length < u.length then some ⟨(), rest, h⟩ else none) := by
  rw [read?]
  cases after? text.toList u <;> rfl

/-- A word is read where it stands in front and no name goes on behind it. -/
theorem read?_word (text : String) (u : List Char) :
    (word text).read? u = (match after? text.toList u with
      | none => none
      | some rest =>
        if h : rest.length < u.length then
          if ∀ c ∈ rest.head?, isNameChar c = false then some ⟨(), rest, h⟩ else none
        else none) := by
  rw [read?]
  rcases after? text.toList u with _ | _ | ⟨c, rest⟩ <;> simp

/-- What a spelling reads is that spelling, with nothing behind it that would continue it. -/
theorem eq_of_read? {t : Spelling} {u : List Char} {r : Reading Unit u}
    (h : t.read? u = some r) : u = t.chars ++ r.rest ∧ t.Ends r.rest := by
  cases t with
  | sign text =>
    rw [read?_sign] at h
    cases hafter : after? text.toList u with
    | none => simp [hafter] at h
    | some rest =>
      simp only [hafter, Option.dite_none_right_eq_some] at h
      obtain ⟨_, hr⟩ := h
      obtain rfl := Option.some.inj hr
      exact ⟨after?_eq_some_iff.1 hafter, trivial⟩
  | word text =>
    rw [read?_word] at h
    cases hafter : after? text.toList u with
    | none => simp [hafter] at h
    | some rest =>
      simp only [hafter, Option.dite_none_right_eq_some, Option.ite_none_right_eq_some] at h
      obtain ⟨_, hends, hr⟩ := h
      obtain rfl := Option.some.inj hr
      exact ⟨after?_eq_some_iff.1 hafter, hends⟩

/-- A spelling is read where it stands in front and nothing behind it would continue it. -/
theorem read?_append {t : Spelling} {s : List Char} (ht : t.chars ≠ []) (hs : t.Ends s) :
    ∃ h, t.read? (t.chars ++ s) = some ⟨(), s, h⟩ := by
  have hshorter : s.length < (t.chars ++ s).length := by
    have := List.length_pos_iff.2 ht
    rw [List.length_append]
    omega
  refine ⟨hshorter, ?_⟩
  cases t with
  | sign text =>
    have hafter : after? text.toList ((sign text).chars ++ s) = some s :=
      after?_eq_some_iff.2 rfl
    rw [read?_sign, hafter]
    exact dif_pos hshorter
  | word text =>
    have hafter : after? text.toList ((word text).chars ++ s) = some s :=
      after?_eq_some_iff.2 rfl
    rw [read?_word, hafter]
    dsimp only
    rw [dif_pos hshorter]
    exact if_pos hs

/-- Two tokens are told apart, where behind the second stands none of the characters that are
given: as words if they differ, as signs if neither begins with the other, but for a character that
does not stand there. -/
def Apart (barred : List Char) : Spelling → Spelling → Prop
  | .word a, .word b => a ≠ b
  | .sign a, .sign b => ¬ a.toList <+: b.toList ∧
      (b.toList <+: a.toList → (a.toList.drop b.toList.length).head?.any barred.contains = true)
  | _, _ => True

instance (barred : List Char) : (q t : Spelling) → Decidable (q.Apart barred t)
  | .word a, .word b => inferInstanceAs (Decidable (a ≠ b))
  | .sign a, .sign b => inferInstanceAs (Decidable (¬ a.toList <+: b.toList ∧
      (b.toList <+: a.toList →
        (a.toList.drop b.toList.length).head?.any barred.contains = true)))
  | .word _, .sign _ | .sign _, .word _ => inferInstanceAs (Decidable True)

/-- A token is not read where another one stands in front that it is told apart from. -/
theorem read?_eq_none (barred : List Char) {q t : Spelling} {s : List Char} (hq : q.IsToken)
    (ht : t.IsToken) (hends : t.Ends s) (hapart : q.Apart barred t)
    (hs : ∀ c ∈ s.head?, c ∉ barred) : q.read? (t.chars ++ s) = none := by
  by_contra hsome
  obtain ⟨r, hr⟩ := Option.ne_none_iff_exists'.1 hsome
  obtain ⟨heq, hqends⟩ := eq_of_read? hr
  -- a word and a sign differ in their first character
  have hstart {a b : String} {u v : List Char} (ha : IsName a)
      (hb : b.toList.head?.any (fun c => !isNameStart c && !isGap c) = true)
      (h : a.toList ++ u = b.toList ++ v) : False := by
    obtain ⟨c, w, hc, hcstart, -⟩ := ha.exists_cons
    obtain ⟨d, hd, hdstart⟩ := (Option.any_eq_true ..).1 hb
    obtain ⟨w', hd⟩ := List.head?_eq_some_iff.1 hd
    rw [hc, hd] at h
    obtain rfl := (List.cons.inj h).1
    simp [hcstart] at hdstart
  cases q with
  | word a =>
    cases t with
    | word b =>
      refine hapart (String.toList_inj.1 ?_)
      rw [← (takeWhile_dropWhile_append (List.all_eq_true.1 hq.2) hqends).1,
        ← (takeWhile_dropWhile_append (List.all_eq_true.1 ht.2) hends).1]
      exact congrArg _ heq.symm
    | sign b => exact hstart hq ht heq.symm
  | sign a =>
    cases t with
    | word b => exact hstart ht hq heq
    | sign b =>
      obtain ⟨hfront, hback⟩ := hapart
      rcases List.append_eq_append_iff.1 heq with ⟨u, ha, hu⟩ | ⟨u, hb, -⟩
      · obtain ⟨c, hc, hbarred⟩ := (Option.any_eq_true ..).1 (hback ⟨u, ha.symm⟩)
        change a.toList = b.toList ++ u at ha
        rw [ha, List.drop_left] at hc
        refine hs c ?_ (List.contains_iff_mem.1 hbarred)
        rw [hu, List.head?_append, Option.mem_def.1 hc]
        rfl
      · exact hfront ⟨u, hb.symm⟩

end Spelling

/-! ### The first of several spellings -/

section OneOf

variable {α : Type} {table : List (Spelling × α)} {u : List Char}

theorem oneOf?_eq_none (h : ∀ p ∈ table, p.1.read? u = none) : oneOf? table u = none := by
  rw [oneOf?, List.findSome?_eq_none_iff]
  intro p hp
  simp only [h p hp, Option.map_none]

theorem oneOf?_eq_some {before after : List (Spelling × α)} {t : Spelling} {v : α}
    {r : Reading Unit u} (hbefore : ∀ p ∈ before, p.1.read? u = none) (h : t.read? u = some r) :
    oneOf? (before ++ (t, v) :: after) u = some (r.map fun _ => v) := by
  have hnone := oneOf?_eq_none hbefore
  rw [oneOf?] at hnone
  rw [oneOf?, List.findSome?_append, hnone, Option.none_or, List.findSome?_cons]
  simp only [h, Option.map_some]

/-- No spelling is read where none begins as the text does. -/
theorem oneOf?_eq_none_of_head (h : ∀ p ∈ table, p.1.chars ≠ [] ∧ p.1.chars.head? ≠ u.head?) :
    oneOf? table u = none := by
  refine oneOf?_eq_none fun p hp => ?_
  by_contra hsome
  obtain ⟨r, hr⟩ := Option.ne_none_iff_exists'.1 hsome
  obtain ⟨hne, hhead⟩ := h p hp
  rw [(Spelling.eq_of_read? hr).1, List.head?_append, List.head?_eq_some_head hne] at hhead
  exact hhead rfl

variable {t : Spelling} {s : List Char}

theorem oneOf?_eq_none_of_apart (barred : List Char) (htable : ∀ p ∈ table, p.1.IsToken)
    (ht : t.IsToken) (hends : t.Ends s) (hs : ∀ c ∈ s.head?, c ∉ barred)
    (h : ∀ p ∈ table, p.1.Apart barred t) : oneOf? table (t.chars ++ s) = none :=
  oneOf?_eq_none fun p hp => Spelling.read?_eq_none barred (htable p hp) ht hends (h p hp) hs

/-- A token is read as the first spelling of a table that it is not told apart from. -/
theorem oneOf?_eq_some_of_find? (barred : List Char) {v : α} (htable : ∀ p ∈ table, p.1.IsToken)
    (hends : t.Ends s) (hs : ∀ c ∈ s.head?, c ∉ barred)
    (h : table.find? (fun p => ¬ p.1.Apart barred t) = some (t, v)) :
    ∃ h, oneOf? table (t.chars ++ s) = some ⟨v, s, h⟩ := by
  obtain ⟨-, before, after, rfl, hbefore⟩ := List.find?_eq_some_iff_append.1 h
  have ht := htable (t, v) (List.mem_append_right _ List.mem_cons_self)
  obtain ⟨hshorter, hread⟩ := Spelling.read?_append ht.ne_nil hends
  refine ⟨hshorter, oneOf?_eq_some (fun p hp => ?_) hread⟩
  have hapart : p.1.Apart barred t := by simpa using hbefore p hp
  exact Spelling.read?_eq_none barred (htable p (List.mem_append_left _ hp)) ht hends hapart hs

end OneOf

/-! ### Operators -/

theorem operators_eq_nil {level : Nat} (h : levels ≤ level) : operators level = [] := by
  obtain ⟨k, rfl⟩ := Nat.exists_eq_add_of_le' h
  rfl

/-- What holds of the operators of each level holds of those of any. -/
theorem forall_operators {P : Nat → Spelling × BinaryOp → Prop}
    (h : ∀ level < levels, ∀ p ∈ operators level, P level p) (level : Nat) :
    ∀ p ∈ operators level, P level p := by
  by_cases hlevel : level < levels
  · exact h level hlevel
  · rw [operators_eq_nil (Nat.le_of_not_lt hlevel)]
    exact fun p hp => nomatch hp

theorem isToken_of_mem_operators (level : Nat) : ∀ p ∈ operators level, p.1.IsToken :=
  forall_operators (P := fun _ p => p.1.IsToken) (by decide +kernel) level

/-- A binary operator is read at its level. -/
theorem oneOf?_operators {op : BinaryOp} {t : Spelling} {s : List Char} (ht : t ∈ op.spellings)
    (hends : t.Ends s) (hs : s.head? ≠ some '=') :
    ∃ h, oneOf? (operators op.level) (t.chars ++ s) = some ⟨op, s, h⟩ := by
  have hfind : ∀ t ∈ op.spellings,
      (operators op.level).find? (fun p => ¬ p.1.Apart ['='] t) = some (t, op) := by
    cases op <;> decide +kernel
  refine oneOf?_eq_some_of_find? _ (isToken_of_mem_operators _) hends (fun c hc hbarred => ?_)
    (hfind t ht)
  obtain rfl := List.mem_singleton.1 hbarred
  exact hs hc

/-- A binary operator is not read at a tighter level. -/
theorem oneOf?_operators_tighter {op : BinaryOp} {t : Spelling} {s : List Char} {level : Nat}
    (ht : t ∈ op.spellings) (hends : t.Ends s) (hlevel : op.level < level) :
    oneOf? (operators level) (t.chars ++ s) = none := by
  have htoken : ∀ t ∈ op.spellings, t.IsToken := by
    cases op <;> decide +kernel
  have hapart : ∀ level < levels, ∀ p ∈ operators level, op.level < level →
      ∀ t ∈ op.spellings, p.1.Apart [] t := by
    cases op <;> decide +kernel
  refine oneOf?_eq_none_of_apart [] (isToken_of_mem_operators _) (htoken t ht) hends
    (fun c _ => List.not_mem_nil) fun p hp => ?_
  exact forall_operators (P := fun level p => op.level < level → ∀ t ∈ op.spellings,
    p.1.Apart [] t) hapart level p hp hlevel t ht

/-- No operator begins as what stands behind an operand otherwise. -/
theorem oneOf?_operators_of_head {u : List Char} (level : Nat)
    (h : u.head? ∈ [none, some ')', some ']', some ',', some '.', some '[']) :
    oneOf? (operators level) u = none := by
  have hall : ∀ level < levels, ∀ p ∈ operators level, p.1.chars ≠ [] ∧
      ∀ o ∈ [none, some ')', some ']', some ',', some '.', some '['], p.1.chars.head? ≠ o := by
    decide +kernel
  refine oneOf?_eq_none_of_head fun p hp => ?_
  have hp := forall_operators (P := fun _ p => p.1.chars ≠ [] ∧
    ∀ o ∈ [none, some ')', some ']', some ',', some '.', some '['], p.1.chars.head? ≠ o)
    hall level p hp
  exact ⟨hp.1, hp.2 _ h⟩

/-- A unary operator is read as such. -/
theorem unary?_operator {op : UnaryOp} {t : Spelling} {s : List Char} (ht : t ∈ op.spellings)
    (hends : t.Ends s) (hs : s.head? ≠ some '=') :
    ∃ h, unary? (t.chars ++ s) = some ⟨op, s, h⟩ := by
  let table : List (Spelling × UnaryOp) :=
    [(.sign "!", .not), (.word "not", .not), (.sign "-", .negate)]
  have htable : ∀ p ∈ table, p.1.IsToken := by
    decide +kernel
  have hfind : ∀ t ∈ op.spellings, table.find? (fun p => ¬ p.1.Apart [] t) = some (t, op) := by
    cases op <;> decide +kernel
  obtain ⟨hshorter, hread⟩ := oneOf?_eq_some_of_find? [] htable hends
    (fun c _ => List.not_mem_nil) (hfind t ht)
  refine ⟨hshorter, ?_⟩
  rw [unary?, hread]
  exact if_neg fun h => hs h.2

/-- Where neither a sign of a unary operator stands in front nor its word, there is none. -/
theorem unary?_eq_none {t : Spelling} {s : List Char} (ht : t.IsToken) (hends : t.Ends s)
    (hword : t ≠ .word "not") (hsign : t.chars.head? ≠ some '!' ∧ t.chars.head? ≠ some '-') :
    unary? (t.chars ++ s) = none := by
  have hhead {c : Char} (hc : t.chars.head? ≠ some c) {q : Spelling} (hq : q.chars = [c]) :
      q.read? (t.chars ++ s) = none := by
    by_contra hsome
    obtain ⟨r, hr⟩ := Option.ne_none_iff_exists'.1 hsome
    have hfront := congrArg List.head? (Spelling.eq_of_read? hr).1
    rw [hq, List.head?_append, List.head?_eq_some_head ht.ne_nil] at hfront
    rw [List.head?_eq_some_head ht.ne_nil] at hc
    exact hc hfront
  have hnot : (Spelling.word "not").read? (t.chars ++ s) = none := by
    refine Spelling.read?_eq_none [] (by decide +kernel) ht hends ?_
      fun c _ => List.not_mem_nil
    cases t with
    | word text => exact fun h => hword (congrArg _ h.symm)
    | sign text => trivial
  rw [unary?, oneOf?_eq_none]
  intro p hp
  simp only [List.mem_cons, List.not_mem_nil, or_false] at hp
  rcases hp with rfl | rfl | rfl
  · exact hhead hsign.1 rfl
  · exact hnot
  · exact hhead hsign.2 rfl

/-! ### Literals and names -/

theorem isToken_of_mem_constants : ∀ p ∈ constants, p.1.IsToken := by
  decide +kernel

/-- No constant is read where another word or a sign stands in front. -/
theorem constants_eq_none {t : Spelling} {s : List Char} (ht : t.IsToken) (hends : t.Ends s)
    (hword : ∀ text, t = .word text → text ∉ reserved) :
    oneOf? constants (t.chars ++ s) = none := by
  refine oneOf?_eq_none_of_apart [] isToken_of_mem_constants ht hends
    (fun c _ => List.not_mem_nil) fun p hp => ?_
  have hconstants : ∀ p ∈ constants, ∃ text ∈ reserved, p.1 = .word text := by
    decide
  obtain ⟨text, htext, hp⟩ := hconstants p hp
  rw [hp]
  cases t with
  | sign text => trivial
  | word name => exact fun h => hword name rfl (h ▸ htext)

theorem isNameStart_of_isDigit {c : Char} (hc : c.isDigit = true) : isNameStart c = false := by
  have hall : ∀ n < 58, 48 ≤ n → isNameStart (Char.ofNat n) = false := by
    decide +kernel
  simp only [Char.isDigit, Bool.and_eq_true, decide_eq_true_eq, ge_iff_le,
    UInt32.le_iff_toNat_le] at hc
  rw [← Char.ofNat_toNat c]
  exact hall c.toNat (Nat.lt_succ_of_le hc.2) hc.1

theorem isGap_of_isDigit {c : Char} (hc : c.isDigit = true) : isGap c = false := by
  by_contra hgap
  simp only [isGap, Bool.not_eq_false, Bool.or_eq_true, beq_iff_eq] at hgap
  rcases hgap with ((rfl | rfl) | rfl) | rfl <;> exact absurd hc (by decide)

/-- Nothing stands behind a numeral that would continue it: no digit, and no point with a digit. -/
structure EndsNumeral (s : List Char) : Prop where
  head : ∀ c ∈ s.head?, c.isDigit = false
  point : ∀ t, s = '.' :: t → ∀ c ∈ t.head?, c.isDigit = false

theorem fraction_eq {s : List Char} (h : EndsNumeral s) : fraction s = ([], s) := by
  unfold fraction
  split
  · rename_i t
    have hdigits : t.takeWhile Char.isDigit = [] := by
      rw [← List.nil_append t]
      exact (takeWhile_dropWhile_append (fun c hc => absurd hc List.not_mem_nil) (h.point t rfl)).1
    simp [spanDigits, hdigits]
  · rfl

theorem isDigit_of_isNumeral {digits : List Char} {n : Nat} (h : IsNumeral 10 digits n) :
    (∀ c ∈ digits, c.isDigit = true) ∧ Decimal.digitsValue digits = n := by
  have hdigit {c : Char} {v : Nat} (hc : IsDigit 10 c v) :
      c.isDigit = true ∧ c.toNat - '0'.toNat = v := by
    have hall : ∀ v < 10, (v.digitChar.isDigit = true ∧ v.digitChar.toNat - '0'.toNat = v) ∧
        v.digitChar.toUpper = v.digitChar := by
      decide
    obtain ⟨hv, rfl | rfl⟩ := hc
    · exact (hall v hv).1
    · rw [(hall v hv).2]
      exact (hall v hv).1
  induction h with
  | digit hc =>
    refine ⟨fun d hd => ?_, ?_⟩
    · obtain rfl := List.mem_singleton.1 hd
      exact (hdigit hc).1
    · rw [← (hdigit hc).2, Decimal.digitsValue, List.foldl_cons, List.foldl_nil, Nat.mul_zero,
        Nat.zero_add]
  | append _ hc ih =>
    refine ⟨fun d hd => ?_, ?_⟩
    · rcases List.mem_append.1 hd with hd | hd
      · exact ih.1 d hd
      · obtain rfl := List.mem_singleton.1 hd
        exact (hdigit hc).1
    · have hvalue := ih.2
      rw [Decimal.digitsValue] at hvalue ⊢
      rw [List.foldl_append, hvalue, List.foldl_cons, List.foldl_nil, (hdigit hc).2]

/-- A numeral is read up to a character that would not continue it. -/
theorem number?_of {digits s t : List Char} {n : Nat} (hs : s = digits ++ t)
    (hdigits : IsNumeral 10 digits n) (hn : n < 0x8000000000000000) (ht : EndsNumeral t) :
    ∃ h, number? s = some ⟨.ofNat n, t, h⟩ := by
  obtain ⟨hall, hvalue⟩ := isDigit_of_isNumeral hdigits
  obtain ⟨c, r, rfl⟩ := List.exists_cons_of_ne_nil hdigits.ne_nil
  subst hs
  obtain ⟨htake, hdrop⟩ :=
    takeWhile_dropWhile_append (fun d hd => hall d (List.mem_cons_of_mem c hd)) ht.head
  have hshorter : t.length < (c :: r ++ t).length := by
    simp only [List.length_cons, List.length_append]
    omega
  refine ⟨hshorter, ?_⟩
  have hnumeral : numeralValue? (c :: r) [] = some (.ofNat n) := by
    rw [numeralValue?, hvalue]
    exact (if_pos rfl).trans (if_pos hn)
  change number? (c :: (r ++ t)) = _
  rw [number?, if_pos (hall c List.mem_cons_self)]
  simp only [htake, hdrop, fraction_eq ht, hnumeral, Option.map_some]

/-- What is written within quotes is read up to the closing quote. -/
theorem quoted?_append {quote : Char} {s w : List Char} (hquote : quote ≠ '\\')
    (h : WritesQuoted quote s w) (t : List Char) :
    quoted? quote (w ++ quote :: t) = some (s, t) := by
  induction h with
  | nil =>
    rw [List.nil_append, quoted?]
    · exact if_pos rfl
    · rintro rfl -
      exact hquote rfl
    · rintro c _ rfl
      exact absurd rfl hquote
  | @plain c s w hc hbackslash _ ih =>
    rw [List.cons_append, quoted?, if_neg hc, ih]
    · rfl
    · rintro rfl
      exact absurd rfl hbackslash
    · rintro _ _ rfl
      exact absurd rfl hbackslash
  | escape _ ih =>
    rw [List.cons_append, List.cons_append, quoted?, ih]
    rfl

theorem string?_of {quote : Char} {u s w t : List Char} (hquote : quote = '"' ∨ quote = '\'')
    (hw : WritesQuoted quote s w) (hu : u = quote :: (w ++ [quote]) ++ t) :
    ∃ h, string? u = some ⟨.ofList s, t, h⟩ := by
  have hne : quote ≠ '\\' := by
    rintro rfl
    revert hquote
    decide
  rw [List.cons_append, List.append_assoc, List.singleton_append] at hu
  subst hu
  have hread := quoted?_append hne hw t
  refine ⟨by simp only [List.length_cons, List.length_append]; omega, ?_⟩
  rw [string?, if_pos hquote]
  split
  · rename_i text rest heq
    obtain ⟨rfl, rfl⟩ := Prod.mk.inj (Option.some.inj (heq.symm.trans hread))
    rfl
  · rename_i heq
    rw [hread] at heq
    cases heq

theorem number?_eq_none {s : List Char} (h : ∀ c ∈ s.head?, c.isDigit = false) :
    number? s = none := by
  cases s with
  | nil => rfl
  | cons c s =>
    rw [number?, if_neg]
    simp [h c rfl]

theorem string?_eq_none {s : List Char} (h : ∀ c ∈ s.head?, c ≠ '"' ∧ c ≠ '\'') :
    string? s = none := by
  cases s with
  | nil => rfl
  | cons c s =>
    rw [string?, if_neg]
    simp [h c rfl]

/-- A token of a literal that is not a word. -/
theorem isToken_sign {c : Char} {s : List Char} (hstart : isNameStart c = false)
    (hgap : isGap c = false) : (Spelling.sign (.ofList (c :: s))).IsToken := by
  simp [Spelling.IsToken, hstart, hgap]

theorem isToken_of_writesLiteral {v : Value} {t : Spelling} (h : WritesLiteral v t) :
    t.IsToken := by
  cases h with
  | null => decide
  | bool b => cases b <;> decide
  | @integer n digits hdigits _ =>
    obtain ⟨c, r, rfl⟩ := List.exists_cons_of_ne_nil hdigits.ne_nil
    have hc := (isDigit_of_isNumeral hdigits).1 c List.mem_cons_self
    exact isToken_sign (isNameStart_of_isDigit hc) (isGap_of_isDigit hc)
  | string hquote _ =>
    rcases hquote with rfl | rfl
    · exact isToken_sign (by decide) (by decide)
    · exact isToken_sign (by decide) (by decide)

/-- A literal is read as such where nothing stands behind it that would continue it. -/
theorem atom?_literal {v : Value} {t : Spelling} {s : List Char} (h : WritesLiteral v t)
    (hends : t.Ends s) (hs : EndsNumeral s) :
    ∃ h, atom? (t.chars ++ s) = some ⟨.literal v, s, h⟩ := by
  have hconstant {v : Value} {t : Spelling} (hends : t.Ends s)
      (h : constants.find? (fun p => ¬ p.1.Apart [] t) = some (t, v)) :
      ∃ h, atom? (t.chars ++ s) = some ⟨.literal v, s, h⟩ := by
    obtain ⟨hshorter, hread⟩ := oneOf?_eq_some_of_find? [] isToken_of_mem_constants hends
      (fun c _ => List.not_mem_nil) h
    refine ⟨hshorter, ?_⟩
    simp only [atom?, hread]
    rfl
  have htoken := isToken_of_writesLiteral h
  cases h with
  | null => exact hconstant hends rfl
  | bool b => cases b <;> exact hconstant hends rfl
  | @integer n digits hdigits hn =>
    obtain ⟨hshorter, hread⟩ := number?_of (s := (Spelling.sign (.ofList digits)).chars ++ s)
      (by rw [Spelling.chars, String.toList_ofList]) hdigits hn hs
    refine ⟨hshorter, ?_⟩
    simp only [atom?, constants_eq_none htoken hends nofun, hread]
    rfl
  | @string quote chars w hquote hw =>
    have hchars : (Spelling.sign (.ofList (quote :: (w ++ [quote])))).chars ++ s
        = quote :: (w ++ [quote]) ++ s := by
      rw [Spelling.chars, String.toList_ofList]
    obtain ⟨hshorter, hread⟩ := string?_of hquote hw hchars
    have hnumber : number? ((Spelling.sign (.ofList (quote :: (w ++ [quote])))).chars ++ s)
        = none := by
      refine number?_eq_none fun c hc => ?_
      rw [hchars] at hc
      obtain rfl := Option.some.inj hc
      rcases hquote with rfl | rfl <;> rfl
    refine ⟨hshorter, ?_⟩
    simp only [atom?, constants_eq_none htoken hends nofun, hnumber, hread]
    rfl

/-- A name that is no reserved word is read as such. -/
theorem atom?_name {name : String} {s : List Char} (hname : IsName name)
    (hreserved : name ∉ reserved) (hends : (Spelling.word name).Ends s) :
    ∃ h, atom? ((Spelling.word name).chars ++ s) = some ⟨.name name, s, h⟩ := by
  obtain ⟨hshorter, hread⟩ := anyName?_of (s := (Spelling.word name).chars ++ s) rfl hname hends
  have hword : name? ((Spelling.word name).chars ++ s) = some ⟨name, s, hshorter⟩ := by
    rw [name?, hread, Option.filter_some, if_pos]
    simpa using hreserved
  obtain ⟨c, r, hchars, hstart, -⟩ := hname.exists_cons
  have hhead : ((Spelling.word name).chars ++ s).head? = some c := by
    rw [Spelling.chars, hchars]
    rfl
  have hnumber := number?_eq_none (s := (Spelling.word name).chars ++ s) fun d hd => by
    rw [hhead] at hd
    obtain rfl := Option.some.inj hd
    by_contra hdigit
    simp [isNameStart_of_isDigit (Bool.of_not_eq_false hdigit)] at hstart
  have hstring := string?_eq_none (s := (Spelling.word name).chars ++ s) fun d hd => by
    rw [hhead] at hd
    obtain rfl := Option.some.inj hd
    constructor <;> rintro rfl <;> exact absurd hstart (by decide)
  refine ⟨hshorter, ?_⟩
  have hconstants := constants_eq_none (t := .word name) hname hends fun text htext => by
    obtain rfl := Spelling.word.inj htext
    exact hreserved
  simp only [atom?, hconstants, hnumber, hstring, hword]
  rfl

/-- There is neither a literal nor a name where a parenthesis stands. -/
theorem atom?_eq_none {c : Char} (hc : c = '(' ∨ c = ')') (s : List Char) :
    atom? (c :: s) = none := by
  have hconstants : oneOf? constants (c :: s) = none := by
    refine oneOf?_eq_none_of_head ?_
    rcases hc with rfl | rfl
    · exact (by decide : ∀ p ∈ constants, p.1.chars ≠ [] ∧ p.1.chars.head? ≠ some '(')
    · exact (by decide : ∀ p ∈ constants, p.1.chars ≠ [] ∧ p.1.chars.head? ≠ some ')')
  have hname : isNameStart c = false := by
    rcases hc with rfl | rfl <;> decide
  have hnumber := number?_eq_none (s := c :: s) fun d hd => by
    obtain rfl := Option.some.inj hd
    rcases hc with rfl | rfl <;> rfl
  have hstring := string?_eq_none (s := c :: s) fun d hd => by
    obtain rfl := Option.some.inj hd
    rcases hc with rfl | rfl <;> decide
  simp only [atom?, hconstants, hnumber, hstring, name?, anyName?, hname]
  rfl

end SqlTemplate.Expr
