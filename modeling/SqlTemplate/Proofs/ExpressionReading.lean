import SqlTemplate.Expr.Reader
import SqlTemplate.Proofs.ExpressionTokens

/-!
# Reading back what is written

In whichever way an expression is written, the reader gives it back. The reader of a level takes
what is written at it, whatever stands behind, unless that is an operator of the level or a tighter
one. To go through operators that associate to the left, and through properties, keys and calls, a
reader is followed to where the rest is due: what it makes of the rest is the result.

## Main definitions

* `Expr.Follows` : what stands behind an expression at a level.
* `Expr.ReadsLevel` : the reader of a level takes certain tokens for an expression.

## Main results

* `Expr.WritesLevel.reads` : what is written at a level is read at it.
* `Expr.expression_read_back` : an expression is read as the one that was written.
-/

namespace SqlTemplate.Expr

open Text

/-! ### The first token of a text -/

theorem Spelling.IsToken.isGap_head {t : Spelling} (h : t.IsToken) (r : List Char) :
    ∀ c ∈ (t.chars ++ r).head?, isGap c = false := by
  intro c hc
  rw [List.head?_append, List.head?_eq_some_head h.ne_nil, Option.some_or] at hc
  obtain rfl := Option.some.inj hc
  cases t with
  | word text =>
    obtain ⟨c, s, hs, hstart, -⟩ := IsName.exists_cons h
    simp only [Spelling.chars, hs, List.head_cons]
    by_contra hgap
    simp only [isGap, Bool.not_eq_false, Bool.or_eq_true, beq_iff_eq] at hgap
    rcases hgap with ((rfl | rfl) | rfl) | rfl <;> exact absurd hstart (by decide)
  | sign text =>
    obtain ⟨c, hc, hgap⟩ := (Option.any_eq_true ..).1 h
    rw [show text.toList = (Spelling.sign text).chars from rfl,
      List.head?_eq_some_head h.ne_nil] at hc
    obtain rfl := Option.some.inj hc
    simp only [Bool.and_eq_true, Bool.not_eq_true'] at hgap
    exact hgap.2

namespace LaidOut

variable {t : Spelling} {ts : List Spelling} {s : List Char}

/-- Behind its white space a text begins with its first token. -/
theorem skipGap_cons (h : LaidOut (t :: ts) s) (ht : t.IsToken) :
    ∃ r, Text.skipGap s = t.chars ++ r ∧ t.Ends r ∧ LaidOut ts r := by
  obtain _ | ⟨hg, hends, hrest⟩ := h
  exact ⟨_, skipGap_append hg (ht.isGap_head _), hends, hrest⟩

theorem skipGap_nil (h : LaidOut [] s) : Text.skipGap s = [] := by
  obtain ⟨hg⟩ := h
  rw [← List.append_nil s]
  exact skipGap_append hg nofun

/-- White space in front of a text can be left out. -/
theorem skipGap (h : LaidOut ts s) (hts : ∀ t ∈ ts.head?, t.IsToken) :
    LaidOut ts (Text.skipGap s) := by
  cases ts with
  | nil =>
    rw [h.skipGap_nil]
    exact .nil IsGap.nil
  | cons t ts =>
    obtain ⟨r, hr, hends, hrest⟩ := h.skipGap_cons (hts t rfl)
    rw [hr]
    exact .cons (g := []) IsGap.nil hends hrest

/-- The text begins with white space or with its first token. -/
theorem of_mem_head? (h : LaidOut ts s) (hts : ∀ t ∈ ts.head?, t.IsToken) {c : Char}
    (hc : c ∈ s.head?) : isGap c = true ∨ ∃ t ∈ ts.head?, t.chars.head? = some c := by
  cases h with
  | nil hg => exact .inl (hg c (List.mem_of_mem_head? hc))
  | @cons g s t ts hg _ _ =>
    cases g with
    | nil =>
      have hne := (hts t rfl).ne_nil
      rw [List.nil_append, List.head?_append, List.head?_eq_some_head hne] at hc
      exact .inr ⟨t, rfl, (List.head?_eq_some_head hne).trans hc⟩
    | cons d g => exact .inl (hg c (List.mem_of_mem_head? (l := d :: g) hc))

/-- A token of one character stands in front. -/
theorem skipGap_char {text : String} {c : Char} (h : LaidOut (.sign text :: ts) s)
    (htext : text.toList = [c]) (hc : (Spelling.sign text).IsToken) :
    ∃ r, Text.skipGap s = c :: r ∧ LaidOut ts r := by
  obtain ⟨r, hr, -, hrest⟩ := h.skipGap_cons hc
  rw [Spelling.chars, htext] at hr
  exact ⟨r, hr, hrest⟩

end LaidOut

/-! ### The first token of an expression -/

/-- A token that an expression may begin with. -/
def Spelling.IsHead (t : Spelling) : Prop :=
  t.IsToken ∧ t.chars.head? ≠ some '='

/-- A token that an expression without a unary operator in front may begin with. -/
def Spelling.IsPostfixHead (t : Spelling) : Prop :=
  t.IsHead ∧ t ≠ .word "not" ∧ t.chars.head? ≠ some '!' ∧ t.chars.head? ≠ some '-'

instance (t : Spelling) : Decidable t.IsHead :=
  inferInstanceAs (Decidable (_ ∧ _))

instance (t : Spelling) : Decidable t.IsPostfixHead :=
  inferInstanceAs (Decidable (_ ∧ _))

theorem isPostfixHead_word {name : String} (hname : IsName name) (hne : name ≠ "not") :
    (Spelling.word name).IsPostfixHead := by
  obtain ⟨c, s, hs, hstart, -⟩ := hname.exists_cons
  have hhead {d : Char} (hd : isNameStart d = false) :
      (Spelling.word name).chars.head? ≠ some d := by
    rw [Spelling.chars, hs]
    rintro h
    obtain rfl := Option.some.inj h
    simp [hd] at hstart
  exact ⟨⟨hname, hhead (by decide)⟩, fun h => hne (Spelling.word.inj h), hhead (by decide),
    hhead (by decide)⟩

theorem WritesLiteral.isPostfixHead {v : Value} {t : Spelling} (h : WritesLiteral v t) :
    t.IsPostfixHead := by
  have htoken := isToken_of_writesLiteral h
  cases h with
  | null => decide
  | bool b => cases b <;> decide
  | @integer n digits hdigits _ =>
    obtain ⟨c, r, rfl⟩ := List.exists_cons_of_ne_nil hdigits.ne_nil
    have hc := (isDigit_of_isNumeral hdigits).1 c List.mem_cons_self
    have hhead {d : Char} (hd : d.isDigit = false) :
        (Spelling.sign (.ofList (c :: r))).chars.head? ≠ some d := by
      rw [Spelling.chars, String.toList_ofList]
      rintro h
      obtain rfl := Option.some.inj h
      simp [hd] at hc
    exact ⟨⟨htoken, hhead rfl⟩, by simp, hhead rfl, hhead rfl⟩
  | @string quote chars w hquote _ =>
    have hhead {d : Char} (hd : d ≠ '"' ∧ d ≠ '\'') :
        (Spelling.sign (.ofList (quote :: (w ++ [quote])))).chars.head? ≠ some d := by
      rw [Spelling.chars, String.toList_ofList]
      rintro h
      obtain rfl := Option.some.inj h
      exact hquote.elim hd.1 hd.2
    exact ⟨⟨htoken, hhead (by decide)⟩, by simp, hhead (by decide), hhead (by decide)⟩

theorem WritesPostfix.exists_cons {e : Expr} {ts : List Spelling} :
    WritesPostfix e ts → ∃ t us, ts = t :: us ∧ t.IsPostfixHead
  | .literal h => ⟨_, _, rfl, h.isPostfixHead⟩
  | .name hname hreserved => ⟨_, _, rfl, isPostfixHead_word hname (by
      rintro rfl
      exact hreserved (by decide))⟩
  | .parentheses _ => ⟨_, _, rfl, by decide⟩
  | .property h _ | .index h _ | .call h _ _ => by
    obtain ⟨t, us, rfl, ht⟩ := h.exists_cons
    exact ⟨t, _, rfl, ht⟩

theorem WritesUnary.exists_cons {e : Expr} {ts : List Spelling} :
    WritesUnary e ts → ∃ t us, ts = t :: us ∧ t.IsHead
  | .bare h => by
    obtain ⟨t, us, hts, ht⟩ := h.exists_cons
    exact ⟨t, us, hts, ht.1⟩
  | @WritesUnary.operator op _ _ _ h _ => by
    have hall : ∀ t ∈ op.spellings, t.IsHead := by
      cases op <;> decide
    exact ⟨_, _, rfl, hall _ h⟩

theorem WritesLevel.exists_cons {level : Nat} {e : Expr} {ts : List Spelling} :
    WritesLevel level e ts → ∃ t us, ts = t :: us ∧ t.IsHead
  | .unary h => h.exists_cons
  | .tighter _ h => h.exists_cons
  | .binary _ h _ => by
    obtain ⟨t, us, rfl, ht⟩ := h.exists_cons
    exact ⟨t, _, rfl, ht⟩

/-! ### What stands behind an expression -/

/-- What can stand behind an expression at a level: what closes it, a looser operator, and behind
one that stands in the place of a postfix expression a property, a key or a call. -/
inductive Follows (level : Nat) : List Spelling → Prop
  | done : Follows level []
  | closing {text : String} {ts : List Spelling} :
      text ∈ [")", "]", ","] → Follows level (.sign text :: ts)
  | operator {op : BinaryOp} {spelling t : Spelling} {ts : List Spelling} :
      spelling ∈ op.spellings → op.level < level → t.IsHead → Follows level (spelling :: t :: ts)
  | property {name : String} {ts : List Spelling} :
      levels + 1 < level → IsName name → Follows level (.sign "." :: .word name :: ts)
  | key {ts : List Spelling} : levels + 1 < level → Follows level (.sign "[" :: ts)

/-- A token that ends what stands before it: it continues no number, and no property, key or
arguments begin with it. -/
def Spelling.IsStop (t : Spelling) : Prop :=
  t.IsToken ∧ t.chars.head?.any (fun c => !c.isDigit && c != '(' && c != '.' && c != '[') = true

instance (t : Spelling) : Decidable t.IsStop :=
  inferInstanceAs (Decidable (_ ∧ _))

theorem isStop_of_closing {text : String} (h : text ∈ [")", "]", ","]) :
    (Spelling.sign text).IsStop := by
  have hall : ∀ text ∈ [")", "]", ","], (Spelling.sign text).IsStop := by
    decide
  exact hall text h

theorem isStop_of_mem_spellings {op : BinaryOp} {t : Spelling} (h : t ∈ op.spellings) :
    t.IsStop := by
  have hall : ∀ t ∈ op.spellings, t.IsStop := by
    cases op <;> decide
  exact hall t h

namespace Follows

variable {level : Nat} {ts : List Spelling} {s : List Char}

theorem mono {looser : Nat} (h : Follows level ts) (hle : level ≤ looser) : Follows looser ts := by
  cases h with
  | done => exact .done
  | closing ht => exact .closing ht
  | operator hop hlt ht => exact .operator hop (Nat.lt_of_lt_of_le hlt hle) ht
  | property hlt hname => exact .property (Nat.lt_of_lt_of_le hlt hle) hname
  | key hlt => exact .key (Nat.lt_of_lt_of_le hlt hle)

/-- But for a token that ends the expression, only a property and a key can stand there. -/
theorem isStop_or (h : Follows level ts) : (∀ t ∈ ts.head?, t.IsStop) ∨ levels + 1 < level ∧
    ((∃ name us, ts = .sign "." :: .word name :: us ∧ IsName name) ∨
      ∃ us, ts = .sign "[" :: us) := by
  cases h with
  | done => exact .inl nofun
  | closing ht =>
    refine .inl fun t h => ?_
    obtain rfl := Option.some.inj h
    exact isStop_of_closing ht
  | operator hop _ _ =>
    refine .inl fun t h => ?_
    obtain rfl := Option.some.inj h
    exact isStop_of_mem_spellings hop
  | property hlt hname => exact .inr ⟨hlt, .inl ⟨_, _, rfl, hname⟩⟩
  | key hlt => exact .inr ⟨hlt, .inr ⟨_, rfl⟩⟩

theorem head (h : Follows level ts) : ∀ t ∈ ts.head?,
    t.IsToken ∧ t.chars.head?.any (fun c => !c.isDigit && c != '(') = true := by
  intro t ht
  rcases h.isStop_or with hstop | ⟨-, ⟨name, us, rfl, -⟩ | ⟨us, rfl⟩⟩
  · obtain ⟨htoken, hany⟩ := hstop t ht
    obtain ⟨c, hc, hp⟩ := (Option.any_eq_true ..).1 hany
    refine ⟨htoken, (Option.any_eq_true ..).2 ⟨c, hc, ?_⟩⟩
    simp only [Bool.and_eq_true] at hp ⊢
    exact hp.1.1
  · obtain rfl := Option.some.inj ht
    decide
  · obtain rfl := Option.some.inj ht
    decide

theorem isToken (h : Follows level ts) : ∀ t ∈ ts.head?, t.IsToken :=
  fun t ht => (h.head t ht).1

/-- The text behind white space does not begin with a character unless its first token does. -/
theorem head?_skipGap_ne (h : Follows level ts) (hs : LaidOut ts s) {c : Char}
    (hc : ∀ t ∈ ts.head?, t.chars.head? ≠ some c) : (skipGap s).head? ≠ some c := by
  intro hhead
  rcases (hs.skipGap h.isToken).of_mem_head? h.isToken hhead with hgap | ⟨t, ht, hfirst⟩
  · have hnot := List.head?_dropWhile_not isGap s
    rw [show s.dropWhile isGap = skipGap s from rfl, hhead] at hnot
    simp [hgap] at hnot
  · exact hc t ht hfirst

/-- It does not continue a number: a point stands in front of a name alone. -/
theorem endsNumeral (h : Follows level ts) (hs : LaidOut ts s) : EndsNumeral s where
  head c hc := by
    by_contra hdigit
    rw [Bool.not_eq_false] at hdigit
    rcases hs.of_mem_head? h.isToken hc with hgap | ⟨t, ht, hfirst⟩
    · simp [isGap_of_isDigit hdigit] at hgap
    · have hany := (h.head t ht).2
      simp [hfirst, hdigit] at hany
  point u hu c hc := by
    subst hu
    by_contra hdigit
    rw [Bool.not_eq_false] at hdigit
    rcases h.isStop_or with hstop | ⟨-, ⟨name, us, rfl, hname⟩ | ⟨us, rfl⟩⟩
    · refine h.head?_skipGap_ne (c := '.') hs (fun t ht hfirst => ?_) rfl
      have hany := (hstop t ht).2
      simp [hfirst] at hany
    · obtain ⟨r, hr, hrest⟩ := hs.skipGap_char (c := '.') rfl (by decide)
      obtain rfl := (List.cons.inj hr).2
      have hword : (Spelling.word name).IsToken := hname
      rcases hrest.of_mem_head? (by simpa using hword) hc with hgap | ⟨t, ht, hfirst⟩
      · simp [isGap_of_isDigit hdigit] at hgap
      · obtain rfl := Option.some.inj ht
        obtain ⟨d, v, hchars, hstart, -⟩ := hname.exists_cons
        rw [Spelling.chars, hchars] at hfirst
        obtain rfl := Option.some.inj hfirst
        simp [isNameStart_of_isDigit hdigit] at hstart
    · refine h.head?_skipGap_ne (c := '.') hs (fun t ht hfirst => ?_) rfl
      obtain rfl := Option.some.inj ht
      exact absurd hfirst (by decide)

/-- No operator of the level or of a tighter one stands there. -/
theorem oneOf?_operators_eq_none (h : Follows level ts) (hs : LaidOut ts s) {tighter : Nat}
    (hle : level ≤ tighter) : oneOf? (operators tighter) (skipGap s) = none := by
  cases h with
  | done =>
    refine oneOf?_operators_of_head tighter ?_
    rw [hs.skipGap_nil]
    decide
  | @closing text ts htext =>
    refine oneOf?_operators_of_head tighter ?_
    simp only [List.mem_cons, List.not_mem_nil, or_false] at htext
    rcases htext with rfl | rfl | rfl
    · obtain ⟨r, hr, -⟩ := hs.skipGap_char (c := ')') rfl (by decide)
      simp [hr]
    · obtain ⟨r, hr, -⟩ := hs.skipGap_char (c := ']') rfl (by decide)
      simp [hr]
    · obtain ⟨r, hr, -⟩ := hs.skipGap_char (c := ',') rfl (by decide)
      simp [hr]
  | operator hop hlt _ =>
    obtain ⟨r, hr, hends, -⟩ := hs.skipGap_cons (isStop_of_mem_spellings hop).1
    rw [hr]
    exact oneOf?_operators_tighter hop hends (Nat.lt_of_lt_of_le hlt hle)
  | property _ _ =>
    obtain ⟨r, hr, -⟩ := hs.skipGap_char (c := '.') rfl (by decide)
    refine oneOf?_operators_of_head tighter ?_
    simp [hr]
  | key _ =>
    obtain ⟨r, hr, -⟩ := hs.skipGap_char (c := '[') rfl (by decide)
    refine oneOf?_operators_of_head tighter ?_
    simp [hr]

end Follows

/-! ### Readers step by step

The readers are stated to give a certain text back, with a proof that it is shorter left open. -/

section Readers

variable {level : Nat} {s t u : List Char} {e e' : Expr}

theorem char?_of {c : Char} (hs : s = c :: t) : ∃ h, Reading.char? c s = some ⟨(), t, h⟩ := by
  subst hs
  exact ⟨Nat.lt_succ_self _, if_pos rfl⟩

theorem char?_eq_none {c : Char} (hs : s.head? ≠ some c) : Reading.char? c s = none := by
  cases s with
  | nil => rfl
  | cons d s => exact if_neg fun h => hs (congrArg some h)

/-- An operand is read, and then the operators behind it. -/
theorem readLevel_of_lt (hlevel : level < levels)
    (hfirst : ∃ h, readLevel (level + 1) s = .ok ⟨e, u, h⟩)
    (hmore : ∃ h, readOperands level e u = .ok (e', ⟨t, h⟩)) :
    ∃ h, readLevel level s = .ok ⟨e', t, h⟩ := by
  obtain ⟨hu, hfirst⟩ := hfirst
  obtain ⟨ht, hmore⟩ := hmore
  refine ⟨Nat.lt_of_le_of_lt ht hu, ?_⟩
  rw [readLevel, if_pos hlevel, hfirst]
  simp only [bind, Except.bind, hmore]
  rfl

theorem readLevel_levels : readLevel levels s = readUnary s := by
  rw [readLevel, if_neg (Nat.lt_irrefl _)]

/-- No operator of the level stands behind the operand. -/
theorem readOperands_of_none (h : oneOf? (operators level) (skipGap s) = none) :
    ∃ h, readOperands level e s = .ok (e, ⟨s, h⟩) := by
  refine ⟨Nat.le_refl _, ?_⟩
  rw [readOperands]
  split
  · rfl
  · rename_i hsome
    rw [h] at hsome
    cases hsome

/-- An operator of the level stands behind the operand, with another operand and what follows. -/
theorem readOperands_of_some {op : BinaryOp} {right : Expr} {r : List Char}
    (hop : ∃ h, oneOf? (operators level) (skipGap s) = some ⟨op, r, h⟩)
    (hright : ∃ h, readLevel (level + 1) (skipGap r) = .ok ⟨right, u, h⟩)
    (hmore : ∃ h, readOperands level (.binary op e right) u = .ok (e', ⟨t, h⟩)) :
    ∃ h, readOperands level e s = .ok (e', ⟨t, h⟩) := by
  obtain ⟨hr, hop⟩ := hop
  obtain ⟨hu, hright⟩ := hright
  obtain ⟨ht, hmore⟩ := hmore
  have hle : t.length ≤ s.length := by
    have h₁ := length_skipGap_le s
    have h₂ := length_skipGap_le r
    omega
  refine ⟨hle, ?_⟩
  rw [readOperands]
  split
  · rename_i hnone
    rw [hop] at hnone
    cases hnone
  · rename_i hsome
    obtain rfl := Option.some.inj (hop.symm.trans hsome)
    simp only [bind, Except.bind, hright, hmore]
    rfl

theorem readUnary_of_some {op : UnaryOp} (hop : ∃ h, unary? (skipGap s) = some ⟨op, u, h⟩)
    (hoperand : ∃ h, readUnary u = .ok ⟨e, t, h⟩) :
    ∃ h, readUnary s = .ok ⟨op.apply e, t, h⟩ := by
  obtain ⟨hu, hop⟩ := hop
  obtain ⟨ht, hoperand⟩ := hoperand
  refine ⟨by have := length_skipGap_le s; omega, ?_⟩
  rw [readUnary]
  split
  · rename_i hsome
    obtain rfl := Option.some.inj (hop.symm.trans hsome)
    simp only [bind, Except.bind, hoperand]
    rfl
  · rename_i hnone
    rw [hop] at hnone
    cases hnone

theorem readUnary_of_none (hop : unary? (skipGap s) = none)
    (hoperand : ∃ h, readPostfix (skipGap s) = .ok ⟨e, t, h⟩) :
    ∃ h, readUnary s = .ok ⟨e, t, h⟩ := by
  obtain ⟨ht, hoperand⟩ := hoperand
  refine ⟨Nat.lt_of_lt_of_le ht (length_skipGap_le s), ?_⟩
  rw [readUnary]
  split
  · rename_i hsome
    rw [hop] at hsome
    cases hsome
  · simp only [bind, Except.bind, hoperand]
    rfl

theorem readPostfix_of (hprimary : ∃ h, readPrimary s = .ok ⟨e, u, h⟩)
    (hsteps : ∃ h, readSteps e u = (e', ⟨t, h⟩)) : ∃ h, readPostfix s = .ok ⟨e', t, h⟩ := by
  obtain ⟨hu, hprimary⟩ := hprimary
  obtain ⟨ht, hsteps⟩ := hsteps
  refine ⟨Nat.lt_of_le_of_lt ht hu, ?_⟩
  rw [readPostfix]
  simp only [bind, Except.bind, hprimary, hsteps]
  rfl

theorem readPrimary_of_atom? (h : ∃ h, atom? s = some ⟨e, t, h⟩) :
    ∃ h, readPrimary s = .ok ⟨e, t, h⟩ := by
  obtain ⟨ht, h⟩ := h
  refine ⟨ht, ?_⟩
  rw [readPrimary]
  simp only [h]

theorem readPrimary_of_parentheses {r : List Char} (hs : s = '(' :: r)
    (he : ∃ h, readLevel 0 (skipGap r) = .ok ⟨e, u, h⟩) (hu : skipGap u = ')' :: t) :
    ∃ h, readPrimary s = .ok ⟨e, t, h⟩ := by
  subst hs
  obtain ⟨hu', he⟩ := he
  obtain ⟨hopening, hchar⟩ := char?_of (s := '(' :: r) rfl
  obtain ⟨hclosing, hchar'⟩ := char?_of hu
  have hshorter : t.length < ('(' :: r).length := by
    have h₁ := length_skipGap_le r
    have h₂ := length_skipGap_le u
    simp only [List.length_cons]
    omega
  refine ⟨hshorter, ?_⟩
  rw [readPrimary]
  simp only [atom?_eq_none (.inl rfl) r, hchar, he, hchar']

theorem readSteps_of_property {name : String} (hmember : ∃ h, member? s = some ⟨name, u, h⟩)
    (hnone : readArguments? u = none)
    (hmore : ∃ h, readSteps (.property e name) u = (e', ⟨t, h⟩)) :
    ∃ h, readSteps e s = (e', ⟨t, h⟩) := by
  obtain ⟨hu, hmember⟩ := hmember
  obtain ⟨ht, hmore⟩ := hmore
  refine ⟨Nat.le_of_lt (Nat.lt_of_le_of_lt ht hu), ?_⟩
  rw [readSteps]
  simp only [hmember, hnone, hmore]

theorem readSteps_of_call {name : String} {arguments : List Expr} {r : List Char}
    (hmember : ∃ h, member? s = some ⟨name, r, h⟩)
    (hsome : ∃ h, readArguments? r = some ⟨arguments, u, h⟩)
    (hmore : ∃ h, readSteps (.call e name arguments) u = (e', ⟨t, h⟩)) :
    ∃ h, readSteps e s = (e', ⟨t, h⟩) := by
  obtain ⟨hr, hmember⟩ := hmember
  obtain ⟨hu, hsome⟩ := hsome
  obtain ⟨ht, hmore⟩ := hmore
  refine ⟨by omega, ?_⟩
  rw [readSteps]
  simp only [hmember, hsome, hmore]

theorem readSteps_of_key {key : Expr} (hmember : member? s = none)
    (hkey : ∃ h, readKey? s = some ⟨key, u, h⟩)
    (hmore : ∃ h, readSteps (.index e key) u = (e', ⟨t, h⟩)) :
    ∃ h, readSteps e s = (e', ⟨t, h⟩) := by
  obtain ⟨hu, hkey⟩ := hkey
  obtain ⟨ht, hmore⟩ := hmore
  refine ⟨by omega, ?_⟩
  rw [readSteps]
  simp only [hmember, hkey, hmore]

theorem readSteps_of_none (hmember : member? s = none) (hkey : readKey? s = none) :
    ∃ h, readSteps e s = (e, ⟨s, h⟩) := by
  refine ⟨Nat.le_refl _, ?_⟩
  rw [readSteps]
  simp only [hmember, hkey]

theorem member?_of {name : String} {r : List Char} (hs : skipGap s = '.' :: r)
    (hname : ∃ h, anyName? (skipGap r) = some ⟨name, t, h⟩) :
    ∃ h, member? s = some ⟨name, t, h⟩ := by
  obtain ⟨hpoint, hchar⟩ := char?_of hs
  obtain ⟨ht, hname⟩ := hname
  refine ⟨?_, ?_⟩
  · have h₁ := length_skipGap_le s
    have h₂ := length_skipGap_le r
    omega
  rw [member?]
  simp only [hchar, hname, bind, Option.bind_some]
  rfl

theorem member?_eq_none (hs : (skipGap s).head? ≠ some '.') : member? s = none := by
  rw [member?, char?_eq_none hs]
  rfl

theorem readKey?_of {key : Expr} {r : List Char} (hs : skipGap s = '[' :: r)
    (hkey : ∃ h, readLevel 0 (skipGap r) = .ok ⟨key, u, h⟩) (hu : skipGap u = ']' :: t) :
    ∃ h, readKey? s = some ⟨key, t, h⟩ := by
  obtain ⟨hopening, hchar⟩ := char?_of hs
  obtain ⟨hclosing, hchar'⟩ := char?_of hu
  obtain ⟨hu', hkey⟩ := hkey
  refine ⟨?_, ?_⟩
  · have h₁ := length_skipGap_le s
    have h₂ := length_skipGap_le r
    have h₃ := length_skipGap_le u
    omega
  rw [readKey?]
  simp only [hchar, hkey, hchar', Option.map_some]

theorem readKey?_eq_none (hs : (skipGap s).head? ≠ some '[') : readKey? s = none := by
  rw [readKey?, char?_eq_none hs]

theorem readArguments?_of {arguments : List Expr} {r : List Char} (hs : skipGap s = '(' :: r)
    (hlist : ∃ h, readList r = (arguments, ⟨u, h⟩)) (hu : skipGap u = ')' :: t) :
    ∃ h, readArguments? s = some ⟨arguments, t, h⟩ := by
  obtain ⟨hopening, hchar⟩ := char?_of hs
  obtain ⟨hu', hlist⟩ := hlist
  have hrest : skipGap (readList r).2.1 = ')' :: t := by
    rw [hlist]
    exact hu
  obtain ⟨hclosing, hchar'⟩ := char?_of hrest
  refine ⟨?_, ?_⟩
  · have h₁ := length_skipGap_le s
    have h₂ := length_skipGap_le u
    have h₃ := congrArg List.length hu
    simp only [List.length_cons] at h₃
    omega
  rw [readArguments?]
  simp only [hchar, hchar', Option.map_some, hlist]

theorem readArguments?_eq_none (hs : (skipGap s).head? ≠ some '(') : readArguments? s = none := by
  rw [readArguments?, char?_eq_none hs]

theorem readList_of {rest : List Expr} (he : ∃ h, readLevel 0 (skipGap s) = .ok ⟨e, u, h⟩)
    (hmore : ∃ h, readMore (skipGap u) = (rest, ⟨t, h⟩)) :
    ∃ h, readList s = (e :: rest, ⟨t, h⟩) := by
  obtain ⟨hu, he⟩ := he
  obtain ⟨ht, hmore⟩ := hmore
  refine ⟨?_, ?_⟩
  · have h₁ := length_skipGap_le s
    have h₂ := length_skipGap_le u
    omega
  rw [readList]
  simp only [he, hmore]

theorem readMore_of {rest : List Expr} {r : List Char} (hs : s = ',' :: r)
    (he : ∃ h, readLevel 0 (skipGap r) = .ok ⟨e, u, h⟩)
    (hmore : ∃ h, readMore (skipGap u) = (rest, ⟨t, h⟩)) :
    ∃ h, readMore s = (e :: rest, ⟨t, h⟩) := by
  obtain ⟨hcomma, hchar⟩ := char?_of hs
  obtain ⟨hu, he⟩ := he
  obtain ⟨ht, hmore⟩ := hmore
  refine ⟨?_, ?_⟩
  · have h₁ := length_skipGap_le r
    have h₂ := length_skipGap_le u
    omega
  rw [readMore]
  simp only [hchar, he, hmore]

theorem readMore_of_none (hs : s.head? ≠ some ',') : ∃ h, readMore s = ([], ⟨s, h⟩) := by
  refine ⟨Nat.le_refl _, ?_⟩
  rw [readMore]
  simp only [char?_eq_none hs]

/-- Where a parenthesis closes there is no expression. -/
theorem readLevel_closing {r : List Char} (hs : skipGap s = ')' :: r) (level : Nat) :
    ∃ rest, readLevel level s = .error rest := by
  have hunary : readUnary s = .error (')' :: r) := by
    have hnone : unary? (skipGap s) = none := by
      rw [hs]
      exact unary?_eq_none (t := .sign ")") (s := r) (by decide) trivial nofun (by decide)
    have hprimary : readPrimary (skipGap s) = .error (')' :: r) := by
      rw [hs, readPrimary]
      simp only [atom?_eq_none (.inr rfl) r, char?_eq_none (s := ')' :: r) (c := '(') (by simp)]
    rw [readUnary]
    split
    · rename_i hsome
      rw [hnone] at hsome
      cases hsome
    · rw [readPostfix, hprimary]
      rfl
  induction hk : levels - level generalizing level with
  | zero =>
    rw [readLevel, if_neg (by omega)]
    exact ⟨_, hunary⟩
  | succ k ih =>
    obtain ⟨rest, hrest⟩ := ih (level + 1) (by omega)
    rw [readLevel, if_pos (by omega), hrest]
    exact ⟨rest, rfl⟩

/-- There are no arguments where the parenthesis closes. -/
theorem readList_of_closing {r : List Char} (hs : skipGap s = ')' :: r) :
    ∃ h, readList s = ([], ⟨s, h⟩) := by
  have hgap : skipGap (skipGap s) = ')' :: r := by
    rw [hs]
    rfl
  obtain ⟨rest, herror⟩ := readLevel_closing hgap 0
  refine ⟨Nat.le_refl _, ?_⟩
  rw [readList]
  simp only [herror]

end Readers

/-! ### What the readers take for an expression -/

/-- The reader of a level takes tokens for an expression: it comes to the text behind them with the
expression read, where the operators of the level are due. -/
def ReadsLevel (level : Nat) (e : Expr) (ts : List Spelling) : Prop :=
  ∀ ⦃rest : List Spelling⦄ ⦃s : List Char⦄, Follows (level + 1) rest → LaidOut (ts ++ rest) s →
    ∃ u, LaidOut rest u ∧ ∀ e' t, (∃ h, readOperands level e u = .ok (e', ⟨t, h⟩)) →
      ∃ h, readLevel level s = .ok ⟨e', t, h⟩

/-- The reader of unary operators takes tokens for an expression. -/
def ReadsUnary (e : Expr) (ts : List Spelling) : Prop :=
  ∀ ⦃rest : List Spelling⦄ ⦃s : List Char⦄, Follows (levels + 1) rest → LaidOut (ts ++ rest) s →
    ∃ u, LaidOut rest u ∧ ∃ h, readUnary s = .ok ⟨e, u, h⟩

/-- The reader of postfix expressions takes tokens for an expression: it comes to the text behind
them with the expression read, where properties, keys and calls are due. -/
def ReadsPostfix (e : Expr) (ts : List Spelling) : Prop :=
  ∀ ⦃rest : List Spelling⦄ ⦃s : List Char⦄, Follows (levels + 2) rest → LaidOut (ts ++ rest) s →
    ∃ u, LaidOut rest u ∧ ∀ e' t, (∃ h, readSteps e u = (e', ⟨t, h⟩)) →
      ∃ h, readPostfix (skipGap s) = .ok ⟨e', t, h⟩

/-- The reader of arguments takes tokens for some, up to a closing parenthesis. -/
def ReadsArguments (arguments : List Expr) (ts : List Spelling) : Prop :=
  ∀ ⦃rest : List Spelling⦄ ⦃s : List Char⦄, LaidOut (ts ++ .sign ")" :: rest) s →
    ∃ u, LaidOut (.sign ")" :: rest) u ∧ ∃ h, readList s = (arguments, ⟨u, h⟩)

/-- The reader of further arguments takes tokens for some, up to a closing parenthesis. -/
def ReadsMore (arguments : List Expr) (ts : List Spelling) : Prop :=
  ∀ ⦃rest : List Spelling⦄ ⦃s : List Char⦄, LaidOut (ts ++ .sign ")" :: rest) s →
    ∃ u, LaidOut (.sign ")" :: rest) u ∧ ∃ h, readMore (skipGap s) = (arguments, ⟨u, h⟩)

section Reads

variable {level : Nat} {e : Expr} {ts us rest : List Spelling} {s : List Char}

/-- Where no operator of the level stands behind it, the expression is the result. -/
theorem ReadsLevel.read (h : ReadsLevel level e ts) (hrest : Follows level rest)
    (hs : LaidOut (ts ++ rest) s) :
    ∃ u, LaidOut rest u ∧ ∃ h, readLevel level s = .ok ⟨e, u, h⟩ := by
  obtain ⟨u, hu, hread⟩ := h (hrest.mono (Nat.le_succ level)) hs
  exact ⟨u, hu, hread e u (readOperands_of_none
    (hrest.oneOf?_operators_eq_none hu (Nat.le_refl level)))⟩

theorem ReadsUnary.readsLevel (h : ReadsUnary e ts) : ReadsLevel levels e ts := by
  intro rest s hrest hs
  obtain ⟨u, hu, hlt, hread⟩ := h hrest hs
  refine ⟨u, hu, fun e' t hmore => ?_⟩
  have hoperators : oneOf? (operators levels) (skipGap u) = none := rfl
  obtain ⟨_, hnone⟩ := readOperands_of_none (e := e) hoperators
  obtain ⟨_, hmore⟩ := hmore
  obtain ⟨rfl, ht⟩ := Prod.mk.inj (Except.ok.inj (hnone.symm.trans hmore))
  obtain rfl := congrArg Subtype.val ht
  rw [readLevel_levels]
  exact ⟨hlt, hread⟩

theorem ReadsLevel.tighter (hlevel : level < levels) (h : ReadsLevel (level + 1) e ts) :
    ReadsLevel level e ts := by
  intro rest s hrest hs
  obtain ⟨u, hu, hread⟩ := h.read hrest hs
  exact ⟨u, hu, fun e' t hmore => readLevel_of_lt hlevel hread hmore⟩

theorem head?_ne_of_isHead {t : Spelling} (ht : t.IsHead) (h : LaidOut (t :: ts) s) :
    s.head? ≠ some '=' := by
  intro hhead
  rcases h.of_mem_head? (by simpa using ht.1) hhead with hgap | ⟨t', ht', hfirst⟩
  · exact absurd hgap (by decide)
  · obtain rfl := Option.some.inj ht'
    exact ht.2 hfirst

/-- A left operand is read, and behind the operator the right one as what is tighter. -/
theorem ReadsLevel.binary {op : BinaryOp} {spelling : Spelling} {left right : Expr}
    (hop : spelling ∈ op.spellings) (hleft : ReadsLevel op.level left ts)
    (hwrites : WritesLevel (op.level + 1) right us)
    (hright : ReadsLevel (op.level + 1) right us) :
    ReadsLevel op.level (.binary op left right) (ts ++ spelling :: us) := by
  intro rest s hrest hs
  obtain ⟨t, us, rfl, ht⟩ := hwrites.exists_cons
  rw [List.append_assoc, List.cons_append, List.cons_append] at hs
  have hfollows : Follows (op.level + 1) (spelling :: t :: (us ++ rest)) :=
    .operator hop (Nat.lt_succ_self _) ht
  obtain ⟨u, hu, hread⟩ := hleft hfollows hs
  obtain ⟨r, hr, hends, hrrest⟩ := hu.skipGap_cons (isStop_of_mem_spellings hop).1
  have hoperator := oneOf?_operators hop hends (head?_ne_of_isHead ht hrrest)
  rw [← hr] at hoperator
  obtain ⟨v, hv, hreadRight⟩ := hright.read hrest
    (hrrest.skipGap (by simpa using ht.1))
  exact ⟨v, hv, fun e' t hmore => hread e' t (readOperands_of_some hoperator hreadRight hmore)⟩

theorem ReadsUnary.operator {op : UnaryOp} {spelling : Spelling} (hop : spelling ∈ op.spellings)
    (hwrites : WritesUnary e ts) (h : ReadsUnary e ts) :
    ReadsUnary (op.apply e) (spelling :: ts) := by
  intro rest s hrest hs
  obtain ⟨t, ts, rfl, ht⟩ := hwrites.exists_cons
  have htoken : ∀ t ∈ op.spellings, t.IsToken := by
    cases op <;> decide
  obtain ⟨r, hr, hends, hrrest⟩ := hs.skipGap_cons (htoken spelling hop)
  have hoperator := unary?_operator hop hends (head?_ne_of_isHead ht hrrest)
  rw [← hr] at hoperator
  obtain ⟨u, hu, hread⟩ := h hrest hrrest
  exact ⟨u, hu, readUnary_of_some hoperator hread⟩

/-- Where nothing that belongs to it stands behind it, the postfix expression is the result. -/
theorem ReadsPostfix.readsUnary (hwrites : WritesPostfix e ts) (h : ReadsPostfix e ts) :
    ReadsUnary e ts := by
  intro rest s hrest hs
  obtain ⟨t, ts, rfl, ht⟩ := hwrites.exists_cons
  obtain ⟨u, hu, hread⟩ := h (hrest.mono (Nat.le_succ _)) hs
  obtain ⟨r, hr, hends, -⟩ := hs.skipGap_cons ht.1.1
  have hunary : unary? (skipGap s) = none := by
    rw [hr]
    exact unary?_eq_none ht.1.1 hends ht.2.1 ht.2.2
  have hne {c : Char} (hc : c = '.' ∨ c = '[') : (skipGap u).head? ≠ some c := by
    refine hrest.head?_skipGap_ne hu fun t ht hfirst => ?_
    rcases hrest.isStop_or with hstop | ⟨hlt, -⟩
    · have hany := (hstop t ht).2
      rcases hc with rfl | rfl <;> simp [hfirst] at hany
    · exact Nat.lt_irrefl _ hlt
  exact ⟨u, hu, readUnary_of_none hunary (hread e u (readSteps_of_none
    (member?_eq_none (hne (.inl rfl))) (readKey?_eq_none (hne (.inr rfl)))))⟩

/-- An expression that is a token by itself. -/
theorem ReadsPostfix.of_atom {t : Spelling} (ht : t.IsToken)
    (hatom : ∀ {r}, t.Ends r → EndsNumeral r → ∃ h, atom? (t.chars ++ r) = some ⟨e, r, h⟩) :
    ReadsPostfix e [t] := by
  intro rest s hrest hs
  obtain ⟨r, hr, hends, hrrest⟩ := LaidOut.skipGap_cons hs ht
  have hread := hatom hends (hrest.endsNumeral hrrest)
  rw [← hr] at hread
  exact ⟨r, hrrest, fun e' t hmore => readPostfix_of (readPrimary_of_atom? hread) hmore⟩

theorem ReadsPostfix.parentheses (hwrites : WritesLevel 0 e ts) (h : ReadsLevel 0 e ts) :
    ReadsPostfix e (.sign "(" :: (ts ++ [.sign ")"])) := by
  intro rest s _ hs
  obtain ⟨t, ts, rfl, ht⟩ := hwrites.exists_cons
  rw [List.cons_append, List.append_assoc, List.singleton_append] at hs
  obtain ⟨r, hr, hrrest⟩ := hs.skipGap_char (c := '(') rfl (by decide)
  obtain ⟨u, hu, hread⟩ := h.read (.closing (by decide)) (hrrest.skipGap (by simpa using ht.1))
  obtain ⟨v, hv, hvrest⟩ := hu.skipGap_char (c := ')') rfl (by decide)
  exact ⟨v, hvrest, fun e' t hmore => readPostfix_of (readPrimary_of_parentheses hr hread hv) hmore⟩

/-- A point and a name are read behind a target. -/
theorem LaidOut.member?_of {name : String} (h : LaidOut (.sign "." :: .word name :: ts) s)
    (hname : IsName name) :
    ∃ u, LaidOut ts u ∧ ∃ h, member? s = some ⟨name, u, h⟩ := by
  obtain ⟨r, hr, hrrest⟩ := h.skipGap_char (c := '.') rfl (by decide)
  obtain ⟨u, hu, hends, hurest⟩ := hrrest.skipGap_cons (t := .word name) hname
  exact ⟨u, hurest, Expr.member?_of hr (anyName?_of hu hname hends)⟩

theorem ReadsPostfix.property {name : String} (h : ReadsPostfix e ts) (hname : IsName name) :
    ReadsPostfix (.property e name) (ts ++ [.sign ".", .word name]) := by
  intro rest s hrest hs
  rw [List.append_assoc] at hs
  have hfollows : Follows (levels + 2) ([.sign ".", .word name] ++ rest) :=
    .property (Nat.lt_succ_self _) hname
  obtain ⟨u, hu, hread⟩ := h hfollows hs
  obtain ⟨v, hv, hmember⟩ := LaidOut.member?_of hu hname
  have hnone : readArguments? v = none := by
    refine readArguments?_eq_none (hrest.head?_skipGap_ne hv fun t ht hfirst => ?_)
    have hany := (hrest.head t ht).2
    simp [hfirst] at hany
  exact ⟨v, hv, fun e' t hmore => hread e' t (readSteps_of_property hmember hnone hmore)⟩

theorem ReadsPostfix.index {key : Expr} (h : ReadsPostfix e ts) (hwrites : WritesLevel 0 key us)
    (hkey : ReadsLevel 0 key us) :
    ReadsPostfix (.index e key) (ts ++ .sign "[" :: (us ++ [.sign "]"])) := by
  intro rest s hrest hs
  obtain ⟨t, us, rfl, ht⟩ := hwrites.exists_cons
  rw [List.append_assoc, List.cons_append, List.append_assoc, List.singleton_append] at hs
  obtain ⟨u, hu, hread⟩ := h (.key (Nat.lt_succ_self _)) hs
  obtain ⟨r, hr, hrrest⟩ := hu.skipGap_char (c := '[') rfl (by decide)
  obtain ⟨v, hv, hreadKey⟩ := hkey.read (.closing (by decide))
    (hrrest.skipGap (by simpa using ht.1))
  obtain ⟨w, hw, hwrest⟩ := hv.skipGap_char (c := ']') rfl (by decide)
  have hmember : member? u = none := by
    refine member?_eq_none ?_
    simp [hr]
  exact ⟨w, hwrest, fun e' t hmore =>
    hread e' t (readSteps_of_key hmember (readKey?_of hr hreadKey hw) hmore)⟩

theorem ReadsPostfix.call {method : String} {arguments : List Expr} (h : ReadsPostfix e ts)
    (hmethod : IsName method) (harguments : ReadsArguments arguments us) :
    ReadsPostfix (.call e method arguments)
      (ts ++ .sign "." :: .word method :: .sign "(" :: (us ++ [.sign ")"])) := by
  intro rest s hrest hs
  simp only [List.append_assoc, List.cons_append, List.nil_append] at hs
  obtain ⟨u, hu, hread⟩ := h (.property (Nat.lt_succ_self _) hmethod) hs
  obtain ⟨v, hv, hmember⟩ := hu.member?_of hmethod
  obtain ⟨r, hr, hrrest⟩ := hv.skipGap_char (c := '(') rfl (by decide)
  obtain ⟨w, hw, hlist⟩ := harguments hrrest
  obtain ⟨x, hx, hxrest⟩ := hw.skipGap_char (c := ')') rfl (by decide)
  exact ⟨x, hxrest, fun e' t hmore =>
    hread e' t (readSteps_of_call hmember (readArguments?_of hr hlist hx) hmore)⟩

theorem ReadsArguments.nil : ReadsArguments [] [] := by
  intro rest s hs
  obtain ⟨r, hr, -⟩ := LaidOut.skipGap_char (c := ')') hs rfl (by decide)
  exact ⟨s, hs, readList_of_closing hr⟩

/-- Behind an argument stands a comma or the closing parenthesis. -/
theorem follows_of_writesMore {more : List Expr} (h : WritesMore more us) (rest : List Spelling) :
    Follows 0 (us ++ .sign ")" :: rest) := by
  cases h with
  | nil => exact .closing (by decide)
  | cons _ _ => exact .closing (by decide)

theorem ReadsArguments.cons {more : List Expr} (hfirst : WritesLevel 0 e ts)
    (he : ReadsLevel 0 e ts) (hothers : WritesMore more us) (hmore : ReadsMore more us) :
    ReadsArguments (e :: more) (ts ++ us) := by
  intro rest s hs
  obtain ⟨t, ts, rfl, ht⟩ := hfirst.exists_cons
  rw [List.append_assoc] at hs
  obtain ⟨u, hu, hread⟩ := he.read (follows_of_writesMore hothers rest)
    (hs.skipGap (by simpa using ht.1))
  obtain ⟨v, hv, hlist⟩ := hmore hu
  exact ⟨v, hv, readList_of hread hlist⟩

theorem ReadsMore.nil : ReadsMore [] [] := by
  intro rest s hs
  obtain ⟨r, hr, -⟩ := LaidOut.skipGap_char (c := ')') hs rfl (by decide)
  refine ⟨skipGap s, LaidOut.skipGap hs (by simp; decide), readMore_of_none ?_⟩
  simp [hr]

theorem ReadsMore.cons {more : List Expr} (hfirst : WritesLevel 0 e ts)
    (he : ReadsLevel 0 e ts) (hothers : WritesMore more us) (hmore : ReadsMore more us) :
    ReadsMore (e :: more) (.sign "," :: (ts ++ us)) := by
  intro rest s hs
  obtain ⟨t, ts, rfl, ht⟩ := hfirst.exists_cons
  rw [List.cons_append, List.append_assoc] at hs
  obtain ⟨r, hr, hrrest⟩ := hs.skipGap_char (c := ',') rfl (by decide)
  obtain ⟨u, hu, hread⟩ := he.read (follows_of_writesMore hothers rest)
    (hrrest.skipGap (by simpa using ht.1))
  obtain ⟨v, hv, hlist⟩ := hmore hu
  exact ⟨v, hv, readMore_of hr hread hlist⟩

end Reads

/-! ### Reading back -/

mutual

/-- What is written at a level is read at it. -/
theorem WritesLevel.reads {level : Nat} {e : Expr} {ts : List Spelling} :
    WritesLevel level e ts → ReadsLevel level e ts
  | .unary h => h.reads.readsLevel
  | .tighter hlevel h => h.reads.tighter hlevel
  | .binary hop hleft hright => hleft.reads.binary hop hright hright.reads

theorem WritesUnary.reads {e : Expr} {ts : List Spelling} : WritesUnary e ts → ReadsUnary e ts
  | .bare h => h.reads.readsUnary h
  | .operator hop h => h.reads.operator hop h

theorem WritesPostfix.reads {e : Expr} {ts : List Spelling} :
    WritesPostfix e ts → ReadsPostfix e ts
  | .literal h => .of_atom (isToken_of_writesLiteral h) (atom?_literal h)
  | .name hname hreserved => .of_atom hname fun hends _ => atom?_name hname hreserved hends
  | .parentheses h => .parentheses h h.reads
  | .property h hname => h.reads.property hname
  | .index h hkey => h.reads.index hkey hkey.reads
  | .call h hmethod harguments => h.reads.call hmethod harguments.reads

theorem WritesArguments.reads {arguments : List Expr} {ts : List Spelling} :
    WritesArguments arguments ts → ReadsArguments arguments ts
  | .nil => .nil
  | .cons he hmore => .cons he he.reads hmore hmore.reads

theorem WritesMore.reads {more : List Expr} {ts : List Spelling} :
    WritesMore more ts → ReadsMore more ts
  | .nil => .nil
  | .cons he hmore => .cons he he.reads hmore hmore.reads

end

/-- A text that writes an expression is read as that expression. -/
theorem parse_of_written {e : Expr} {source : String} (h : Written e source) :
    parse source = .ok e := by
  obtain ⟨ts, hwrites, hs⟩ := h
  rw [← List.append_nil ts] at hs
  obtain ⟨u, hu, _, hread⟩ := hwrites.reads.read .done hs
  rw [parse, hread]
  simp only [hu.skipGap_nil]
  rfl

/-- An expression of the language is read back from every text that writes it, whichever spellings,
parentheses and white space the text has; among them is the one with the fewest. -/
theorem expression_read_back (e : Expr) (he : e.IsWritable) :
    Written e e.print ∧ ∀ source, Written e source → parse source = .ok e :=
  ⟨written_print he, fun _ => parse_of_written⟩

/-- A negation and a disjunction in their words and in their signs. -/
theorem expression_read_back_disjunction :
    let e : Expr := .binary .or (.not (.name "a")) (.name "b")
    e.IsWritable ∧ parse "!a or b" = .ok e ∧ parse "( not a )||b\n" = .ok e := by
  have he : (Expr.binary .or (.not (.name "a")) (.name "b")).IsWritable := by
    decide
  obtain ⟨hprint, hread⟩ := expression_read_back _ he
  have ha : WritesPostfix (.name "a") [.word "a"] := .name (by decide) (by decide)
  have hb : WritesPostfix (.name "b") [.word "b"] := .name (by decide) (by decide)
  -- the negation in its word and in parentheses, where none are needed
  have hnot : WritesPostfix (.not (.name "a")) [.sign "(", .word "not", .word "a", .sign ")"] :=
    .parentheses ((WritesLevel.unary (.operator (show .word "not" ∈ UnaryOp.not.spellings by decide)
      (.bare ha))).loosen (Nat.zero_le _) (Nat.le_refl _))
  have hwrites : WritesLevel 0 (.binary .or (.not (.name "a")) (.name "b"))
      [.sign "(", .word "not", .word "a", .sign ")", .sign "||", .word "b"] :=
    .binary (show .sign "||" ∈ BinaryOp.or.spellings by decide) (hnot.writesAt 0) (hb.writesAt 1)
  have hchars : "( not a )||b\n".toList = [] ++ ("(".toList ++ ([' '] ++ ("not".toList ++
      ([' '] ++ ("a".toList ++ ([' '] ++ (")".toList ++ ([] ++ ("||".toList ++
      ([] ++ ("b".toList ++ ['\n']))))))))))) := by
    decide
  have hlaid : LaidOut [.sign "(", .word "not", .word "a", .sign ")", .sign "||", .word "b"]
      "( not a )||b\n".toList := by
    rw [hchars]
    refine .cons (by decide) trivial (.cons (by decide) ?_ (.cons (by decide) ?_ (.cons (by decide)
      trivial (.cons (by decide) trivial (.cons (by decide) ?_ (.nil (by decide)))))))
    all_goals
      intro c hc
      obtain rfl := Option.some.inj hc
      decide
  exact ⟨he, hread _ hprint, hread _ ⟨_, hwrites, hlaid⟩⟩

end SqlTemplate.Expr
