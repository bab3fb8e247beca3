import SqlTemplate.Expr.Token
import SqlTemplate.Proofs.WrittenCharacters

/-!
# Ways of writing an expression

The same expression can be written in many ways. An operator has several spellings, parentheses may
stand where none are needed, a character of a string may be escaped, and white space is free but
between words. An expression is written as a list of tokens, and the tokens are laid out as a text.

The grammar has a level for each strength of binary operators, a level for unary operators and one
for what properties, keys and calls are of. An expression that is not as tight as its place asks for
stands in parentheses.

## Main definitions

* `Expr.LaidOut` : a text in which tokens stand one after another.
* `Expr.WritesLevel` : the ways of writing an expression at a level.
* `Expr.Written` : the texts that write an expression.
* `Expr.IsWritable` : the expressions that can be written.
* `Expr.print` : the text with the fewest parentheses and blanks.

## Main results

* `Expr.written_print` : the text with the fewest parentheses and blanks writes the expression.
-/

namespace SqlTemplate

/-! ### Levels and spellings -/

/-- The level of a binary operator, from the loosest to the tightest. -/
def BinaryOp.level : BinaryOp → Nat
  | .or => 0
  | .and => 1
  | .eq | .ne => 2
  | .lt | .le | .gt | .ge => 3
  | .add | .sub => 4
  | .mul | .div | .rem => 5

/-- The spellings of a binary operator. -/
def BinaryOp.spellings : BinaryOp → List Expr.Spelling
  | .or => [.word "or", .sign "||"]
  | .and => [.word "and", .sign "&&"]
  | .eq => [.sign "==", .word "eq"]
  | .ne => [.sign "!=", .word "neq"]
  | .lt => [.sign "<", .word "lt"]
  | .le => [.sign "<=", .word "lte"]
  | .gt => [.sign ">", .word "gt"]
  | .ge => [.sign ">=", .word "gte"]
  | .add => [.sign "+"]
  | .sub => [.sign "-"]
  | .mul => [.sign "*"]
  | .div => [.sign "/"]
  | .rem => [.sign "%"]

/-- The first spelling of a binary operator. -/
def BinaryOp.token (op : BinaryOp) : Expr.Spelling :=
  op.spellings.headD (.sign "")

theorem BinaryOp.token_mem (op : BinaryOp) : op.token ∈ op.spellings := by
  cases op <;> decide

theorem BinaryOp.level_lt (op : BinaryOp) : op.level < Expr.levels := by
  cases op <;> decide

namespace Expr

open Text

/-- The spellings of a unary operator. -/
def UnaryOp.spellings : UnaryOp → List Spelling
  | .not => [.sign "!", .word "not"]
  | .negate => [.sign "-"]

/-! ### Tokens in a text -/

namespace Spelling

/-- The characters of a token. -/
def chars : Spelling → List Char
  | .sign text | .word text => text.toList

/-- A text may stand behind a token: behind a word it does not begin with a character that would
continue the word. -/
def Ends : Spelling → List Char → Prop
  | .sign _, _ => True
  | .word _, s => ∀ c ∈ s.head?, isNameChar c = false

end Spelling

/-- Tokens stand in a text one after another, with white space before, between and after them. -/
inductive LaidOut : List Spelling → List Char → Prop
  | nil {g : List Char} : IsGap g → LaidOut [] g
  | cons {g s : List Char} {t : Spelling} {ts : List Spelling} :
      IsGap g → t.Ends s → LaidOut ts s → LaidOut (t :: ts) (g ++ (t.chars ++ s))

/-! ### Ways of writing -/

/-- A name, which may be a reserved word. -/
def IsName (name : String) : Prop :=
  name.toList.head?.any isNameStart = true ∧ name.toList.all isNameChar = true

instance (name : String) : Decidable (IsName name) :=
  inferInstanceAs (Decidable (_ ∧ _))

/-- The characters of a string are written within quotes as themselves, but for the quote and the
backslash, or behind a backslash. -/
inductive WritesQuoted (quote : Char) : List Char → List Char → Prop
  | nil : WritesQuoted quote [] []
  | plain {c : Char} {s w : List Char} :
      c ≠ quote → c ≠ '\\' → WritesQuoted quote s w → WritesQuoted quote (c :: s) (c :: w)
  | escape {c : Char} {s w : List Char} :
      WritesQuoted quote s w → WritesQuoted quote (escaped c :: s) ('\\' :: c :: w)

/-- A literal is a token: a reserved word, an integer of 63 bits in decimal digits, or a string in
quotes of either kind. -/
inductive WritesLiteral : Value → Spelling → Prop
  | null : WritesLiteral .null (.word "null")
  | bool (b : Bool) : WritesLiteral (.bool b) (.word (if b then "true" else "false"))
  | integer {n : Nat} {digits : List Char} :
      IsNumeral 10 digits n → n < 0x8000000000000000 →
      WritesLiteral (.ofNat n) (.sign (.ofList digits))
  | string {quote : Char} {s w : List Char} :
      quote = '"' ∨ quote = '\'' → WritesQuoted quote s w →
      WritesLiteral (.string (.ofList s)) (.sign (.ofList (quote :: (w ++ [quote]))))

mutual

/-- The ways of writing an expression whose binary operators outside of parentheses are at least as
tight as a level. Operators associate to the left, so that a right operand is tighter. -/
inductive WritesLevel : Nat → Expr → List Spelling → Prop
  | unary {e : Expr} {ts : List Spelling} : WritesUnary e ts → WritesLevel levels e ts
  | tighter {level : Nat} {e : Expr} {ts : List Spelling} :
      level < levels → WritesLevel (level + 1) e ts → WritesLevel level e ts
  | binary {op : BinaryOp} {spelling : Spelling} {left right : Expr} {ts us : List Spelling} :
      spelling ∈ op.spellings → WritesLevel op.level left ts → WritesLevel (op.level + 1) right us →
      WritesLevel op.level (.binary op left right) (ts ++ spelling :: us)

/-- The ways of writing an expression that may begin with unary operators. -/
inductive WritesUnary : Expr → List Spelling → Prop
  | bare {e : Expr} {ts : List Spelling} : WritesPostfix e ts → WritesUnary e ts
  | operator {op : UnaryOp} {spelling : Spelling} {e : Expr} {ts : List Spelling} :
      spelling ∈ op.spellings → WritesUnary e ts → WritesUnary (op.apply e) (spelling :: ts)

/-- The ways of writing an expression that properties, keys and calls can stand behind. -/
inductive WritesPostfix : Expr → List Spelling → Prop
  | literal {v : Value} {t : Spelling} : WritesLiteral v t → WritesPostfix (.literal v) [t]
  | name {name : String} :
      IsName name → name ∉ reserved → WritesPostfix (.name name) [.word name]
  | parentheses {e : Expr} {ts : List Spelling} :
      WritesLevel 0 e ts → WritesPostfix e (.sign "(" :: (ts ++ [.sign ")"]))
  | property {e : Expr} {name : String} {ts : List Spelling} :
      WritesPostfix e ts → IsName name →
      WritesPostfix (.property e name) (ts ++ [.sign ".", .word name])
  | index {e key : Expr} {ts us : List Spelling} :
      WritesPostfix e ts → WritesLevel 0 key us →
      WritesPostfix (.index e key) (ts ++ .sign "[" :: (us ++ [.sign "]"]))
  | call {e : Expr} {method : String} {arguments : List Expr} {ts us : List Spelling} :
      WritesPostfix e ts → IsName method → WritesArguments arguments us →
      WritesPostfix (.call e method arguments)
        (ts ++ .sign "." :: .word method :: .sign "(" :: (us ++ [.sign ")"]))

/-- The ways of writing the arguments of a call. -/
inductive WritesArguments : List Expr → List Spelling → Prop
  | nil : WritesArguments [] []
  | cons {e : Expr} {rest : List Expr} {ts us : List Spelling} :
      WritesLevel 0 e ts → WritesMore rest us → WritesArguments (e :: rest) (ts ++ us)

/-- The ways of writing the arguments behind the first, each with a comma before it. -/
inductive WritesMore : List Expr → List Spelling → Prop
  | nil : WritesMore [] []
  | cons {e : Expr} {rest : List Expr} {ts us : List Spelling} :
      WritesLevel 0 e ts → WritesMore rest us → WritesMore (e :: rest) (.sign "," :: (ts ++ us))

end

/-- A text writes an expression. -/
def Written (e : Expr) (source : String) : Prop :=
  ∃ ts, WritesLevel 0 e ts ∧ LaidOut ts source.toList

/-! ### The expressions that can be written -/

/-- A value that a literal stands for. -/
def IsLiteral : Value → Prop
  | .null | .bool _ | .string _ => True
  | .number (.int n) => 0 ≤ n ∧ n < 0x8000000000000000
  | _ => False

mutual

/-- An expression whose literals, names, properties and methods can be written. -/
def IsWritable : Expr → Prop
  | .literal value => IsLiteral value
  | .name id => IsName id ∧ id ∉ reserved
  | .property target id => IsWritable target ∧ IsName id
  | .index target key => IsWritable target ∧ IsWritable key
  | .call target method arguments =>
    IsWritable target ∧ IsName method ∧ AreWritable arguments
  | .not operand | .negate operand => IsWritable operand
  | .binary _ left right => IsWritable left ∧ IsWritable right

/-- Expressions that can be written. -/
def AreWritable : List Expr → Prop
  | [] => True
  | e :: rest => IsWritable e ∧ AreWritable rest

end

instance : (v : Value) → Decidable (IsLiteral v)
  | .null | .bool _ | .string _ => .isTrue trivial
  | .number (.int n) => inferInstanceAs (Decidable (0 ≤ n ∧ n < 0x8000000000000000))
  | .number (.float _) | .array _ | .object _ => .isFalse id

mutual

instance decidableIsWritable : (e : Expr) → Decidable e.IsWritable
  | .literal value => (inferInstance : Decidable (IsLiteral value))
  | .name id => (inferInstance : Decidable (IsName id ∧ id ∉ reserved))
  | .property target _ => @instDecidableAnd _ _ (decidableIsWritable target) inferInstance
  | .index target key =>
    @instDecidableAnd _ _ (decidableIsWritable target) (decidableIsWritable key)
  | .call target _ arguments => @instDecidableAnd _ _ (decidableIsWritable target)
    (@instDecidableAnd _ _ inferInstance (decidableAreWritable arguments))
  | .not operand | .negate operand => decidableIsWritable operand
  | .binary _ left right =>
    @instDecidableAnd _ _ (decidableIsWritable left) (decidableIsWritable right)

instance decidableAreWritable : (es : List Expr) → Decidable (AreWritable es)
  | [] => .isTrue trivial
  | e :: rest => @instDecidableAnd _ _ (decidableIsWritable e) (decidableAreWritable rest)

end

/-! ### The fewest parentheses -/

/-- The characters of a string within single quotes. -/
def quotedChars : List Char → List Char
  | [] => []
  | c :: s => if c = '\'' ∨ c = '\\' then '\\' :: c :: quotedChars s else c :: quotedChars s

/-- The token of a literal. -/
def literalToken : Value → Spelling
  | .bool b => .word (if b then "true" else "false")
  | .number (.int n) => .sign (.ofList (Nat.toDigits 10 n.toNat))
  | .string s => .sign (.ofList ('\'' :: (quotedChars s.toList ++ ['\''])))
  | _ => .word "null"

/-- Tokens of a level of their own, in parentheses where the place asks for a tighter one. -/
def enclose (level own : Nat) (ts : List Spelling) : List Spelling :=
  if level ≤ own then ts else .sign "(" :: (ts ++ [.sign ")"])

mutual

/-- The tokens that write an expression at a level with the fewest parentheses. -/
def tokens (level : Nat) : Expr → List Spelling
  | .literal value => [literalToken value]
  | .name id => [.word id]
  | .property target id => tokens (levels + 1) target ++ [.sign ".", .word id]
  | .index target key => tokens (levels + 1) target ++ .sign "[" :: (tokens 0 key ++ [.sign "]"])
  | .call target method arguments =>
    tokens (levels + 1) target ++
      .sign "." :: .word method :: .sign "(" :: (argumentTokens arguments ++ [.sign ")"])
  | .not operand => enclose level levels (.sign "!" :: tokens levels operand)
  | .negate operand => enclose level levels (.sign "-" :: tokens levels operand)
  | .binary op left right =>
    enclose level op.level (tokens op.level left ++ op.token :: tokens (op.level + 1) right)

/-- The tokens of arguments. -/
def argumentTokens : List Expr → List Spelling
  | [] => []
  | e :: rest => tokens 0 e ++ moreTokens rest

/-- The tokens of the arguments behind the first. -/
def moreTokens : List Expr → List Spelling
  | [] => []
  | e :: rest => .sign "," :: (tokens 0 e ++ moreTokens rest)

end

/-- The text of tokens with a blank only where two words would touch. -/
def layout : List Spelling → List Char
  | [] => []
  | .sign text :: ts => text.toList ++ layout ts
  | .word text :: ts =>
    if (layout ts).head?.any isNameChar then text.toList ++ ' ' :: layout ts
    else text.toList ++ layout ts

/-- The text of an expression with the fewest parentheses and blanks. -/
def print (e : Expr) : String :=
  .ofList (layout (tokens 0 e))

/-! ### Every expression can be written -/

theorem isNumeral_toDigits (n : Nat) : IsNumeral 10 (Nat.toDigits 10 n) n := by
  induction n using Nat.strong_induction_on with
  | _ n ih =>
    by_cases hlt : n < 10
    · rw [Nat.toDigits_of_lt_base hlt]
      exact .digit ⟨hlt, .inl rfl⟩
    · have hstep := IsNumeral.append (ih (n / 10) (by omega))
        (show IsDigit 10 (n % 10).digitChar (n % 10) from ⟨Nat.mod_lt _ (by decide), .inl rfl⟩)
      rwa [← Nat.toDigits_of_base_le (by decide) (Nat.le_of_not_lt hlt), Nat.div_add_mod] at hstep

theorem writesQuoted_quotedChars (s : List Char) : WritesQuoted '\'' s (quotedChars s) := by
  induction s with
  | nil => exact .nil
  | cons c s ih =>
    rw [quotedChars]
    split
    · rename_i hc
      have hescaped : escaped c = c := by
        rcases hc with rfl | rfl <;> rfl
      have hwrites := WritesQuoted.escape (c := c) ih
      rwa [hescaped] at hwrites
    · rename_i hc
      rw [not_or] at hc
      exact .plain hc.1 hc.2 ih

theorem writesLiteral_literalToken {v : Value} (hv : IsLiteral v) :
    WritesLiteral v (literalToken v) := by
  match v, hv with
  | .null, _ => exact .null
  | .bool b, _ => exact .bool b
  | .number (.int (.ofNat n)), hn =>
    exact .integer (isNumeral_toDigits n) (Int.ofNat_lt.1 hn.2)
  | .string s, _ =>
    have hwrites := WritesLiteral.string (.inr rfl) (writesQuoted_quotedChars s.toList)
    rwa [String.ofList_toList] at hwrites

/-- The ways of writing an expression in a place that asks for a level, the last of which is the
place of a postfix expression. -/
def WritesAt (level : Nat) (e : Expr) (ts : List Spelling) : Prop :=
  if level ≤ levels then WritesLevel level e ts else WritesPostfix e ts

/-- A place that asks for less takes what is tighter. -/
theorem WritesLevel.loosen {level tighter : Nat} {e : Expr} {ts : List Spelling}
    (h : WritesLevel tighter e ts) (hle : level ≤ tighter) (htighter : tighter ≤ levels) :
    WritesLevel level e ts := by
  induction hle using Nat.decreasingInduction with
  | self => exact h
  | of_succ k hk ih => exact .tighter (Nat.lt_of_lt_of_le hk htighter) ih

theorem WritesLevel.writesUnary {level : Nat} {e : Expr} {ts : List Spelling}
    (h : WritesLevel level e ts) (hlevel : level = levels) : WritesUnary e ts := by
  cases h with
  | unary h => exact h
  | tighter hlt _ => exact absurd hlevel (Nat.ne_of_lt hlt)
  | @binary op => exact absurd hlevel (Nat.ne_of_lt op.level_lt)

theorem WritesPostfix.writesAt {e : Expr} {ts : List Spelling} (h : WritesPostfix e ts)
    (level : Nat) : WritesAt level e ts := by
  rw [WritesAt]
  split
  · rename_i hle
    exact (WritesLevel.unary (.bare h)).loosen hle (Nat.le_refl _)
  · exact h

/-- Parentheses make an expression fit into any place. -/
theorem WritesLevel.enclose {own : Nat} {e : Expr} {ts : List Spelling}
    (h : WritesLevel own e ts) (hown : own ≤ levels) (level : Nat) :
    WritesAt level e (enclose level own ts) := by
  rw [Expr.enclose]
  split
  · rename_i hle
    rw [WritesAt, if_pos (Nat.le_trans hle hown)]
    exact h.loosen hle hown
  · exact (WritesPostfix.parentheses (h.loosen (Nat.zero_le _) hown)).writesAt level

/-- A unary operator before an operand of its level. -/
theorem WritesLevel.operator (op : UnaryOp) {spelling : Spelling} {e : Expr} {ts : List Spelling}
    (hop : spelling ∈ op.spellings) (h : WritesLevel levels e ts) (level : Nat) :
    WritesAt level (op.apply e) (Expr.enclose level levels (spelling :: ts)) :=
  (WritesLevel.unary (.operator hop (h.writesUnary rfl))).enclose (Nat.le_refl _) level

mutual

theorem writesAt_tokens (level : Nat) :
    (e : Expr) → e.IsWritable → WritesAt level e (e.tokens level)
  | .literal _, h => (WritesPostfix.literal (writesLiteral_literalToken h)).writesAt level
  | .name _, h => (WritesPostfix.name h.1 h.2).writesAt level
  | .property target _, h =>
    (WritesPostfix.property (writesAt_tokens (levels + 1) target h.1) h.2).writesAt level
  | .index target key, h =>
    (WritesPostfix.index (writesAt_tokens (levels + 1) target h.1)
      (writesAt_tokens 0 key h.2)).writesAt level
  | .call target _ arguments, h =>
    (WritesPostfix.call (writesAt_tokens (levels + 1) target h.1) h.2.1
      (writesArguments_argumentTokens arguments h.2.2)).writesAt level
  | .not operand, h =>
    WritesLevel.operator .not (by decide) (writesAt_tokens levels operand h) level
  | .negate operand, h =>
    WritesLevel.operator .negate (by decide) (writesAt_tokens levels operand h) level
  | .binary op left right, h => by
    have hlevel := op.level_lt
    have hleft := writesAt_tokens op.level left h.1
    have hright := writesAt_tokens (op.level + 1) right h.2
    rw [WritesAt, if_pos (Nat.le_of_lt hlevel)] at hleft
    rw [WritesAt, if_pos (Nat.succ_le_of_lt hlevel)] at hright
    exact (WritesLevel.binary op.token_mem hleft hright).enclose (Nat.le_of_lt hlevel) level

theorem writesArguments_argumentTokens :
    (es : List Expr) → AreWritable es → WritesArguments es (argumentTokens es)
  | [], _ => .nil
  | e :: rest, h => .cons (writesAt_tokens 0 e h.1) (writesMore_moreTokens rest h.2)

theorem writesMore_moreTokens :
    (es : List Expr) → AreWritable es → WritesMore es (moreTokens es)
  | [], _ => .nil
  | e :: rest, h => .cons (writesAt_tokens 0 e h.1) (writesMore_moreTokens rest h.2)

end

/-- White space can be put in front. -/
theorem LaidOut.append {g s : List Char} {ts : List Spelling} (h : LaidOut ts s) (hg : IsGap g) :
    LaidOut ts (g ++ s) := by
  have happend {g' : List Char} (hg' : IsGap g') : IsGap (g ++ g') := fun c hc =>
    (List.mem_append.1 hc).elim (hg c) (hg' c)
  cases h with
  | nil hg' => exact .nil (happend hg')
  | cons hg' hends hrest =>
    rw [← List.append_assoc]
    exact .cons (happend hg') hends hrest

theorem laidOut_layout (ts : List Spelling) : LaidOut ts (layout ts) := by
  induction ts with
  | nil => exact .nil IsGap.nil
  | cons t ts ih =>
    cases t with
    | sign text => exact .cons IsGap.nil trivial ih
    | word text =>
      rw [layout]
      split
      · refine .cons IsGap.nil ?_ (ih.append (g := [' ']) (by decide))
        intro c hc
        obtain rfl := Option.some.inj hc
        decide
      · rename_i hnot
        refine .cons IsGap.nil ?_ ih
        intro c hc
        by_contra hname
        refine hnot ((Option.any_eq_true ..).2 ⟨c, hc, ?_⟩)
        simpa using hname

/-- An expression of the language can be written. -/
theorem written_print {e : Expr} (h : e.IsWritable) : Written e e.print := by
  refine ⟨e.tokens 0, writesAt_tokens 0 e h, ?_⟩
  rw [print, String.toList_ofList]
  exact laidOut_layout _

end Expr

end SqlTemplate
