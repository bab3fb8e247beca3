import SqlTemplate.Decimal.Reading
import SqlTemplate.Expr.Basic
import SqlTemplate.Text.Letter
import SqlTemplate.Text.Parts
import SqlTemplate.Text.Reading

/-!
# Words, signs and literals of expressions

The smallest parts of an expression: names, reserved words, the spellings of operators, numbers
and strings. A reserved word ends where the next character could not continue a name.
-/

namespace SqlTemplate.Expr

open Text

/-- The characters that a name may begin with. -/
def isNameStart (c : Char) : Bool :=
  isAlphabetic c || c == '_' || c == '$'

/-- The characters that may continue a name. -/
def isNameChar (c : Char) : Bool :=
  isAlphanumeric c || c == '_' || c == '$'

/-- The words that are no names on their own. -/
def reserved : List String :=
  ["and", "or", "not", "eq", "neq", "lt", "lte", "gt", "gte", "true", "false", "null"]

/-- A name, which may be a reserved word. -/
def anyName? (s : List Char) : Option (Reading String s) :=
  match s with
  | [] => none
  | c :: rest =>
    if isNameStart c then
      some ⟨.ofList (c :: rest.takeWhile isNameChar), rest.dropWhile isNameChar,
        length_dropWhile_lt_cons isNameChar c rest⟩
    else none

/-- A name that is no reserved word. -/
def name? (s : List Char) : Option (Reading String s) :=
  (anyName? s).filter fun r => !reserved.contains r.value

/-- A spelling: a sign, which may stand next to anything, or a word. -/
inductive Spelling where
  | sign (text : String)
  | word (text : String)
  deriving DecidableEq, Repr

/-- A spelling at the front of a text. -/
def Spelling.read? (spelling : Spelling) (s : List Char) : Option (Reading Unit s) :=
  let text := match spelling with | .sign t | .word t => t
  match after? text.toList s with
  | none => none
  | some rest =>
    let ends := match spelling, rest with
      | .word _, c :: _ => !isNameChar c
      | _, _ => true
    if h : rest.length < s.length then
      if ends then some ⟨(), rest, h⟩ else none
    else none

/-- The first of several spellings at the front of a text, with what it stands for. -/
def oneOf? {α : Type} (spellings : List (Spelling × α)) (s : List Char) : Option (Reading α s) :=
  spellings.findSome? fun (spelling, value) => (spelling.read? s).map fun r => r.map fun _ => value

/-- The number of levels of binary operators, from the loosest to the tightest. -/
def levels : Nat := 6

/-- The operators of a level, with a longer sign before its beginnings. -/
def operators : (level : Nat) → List (Spelling × BinaryOp)
  | 0 => [(.sign "||", .or), (.word "or", .or)]
  | 1 => [(.sign "&&", .and), (.word "and", .and)]
  | 2 => [(.sign "==", .eq), (.sign "!=", .ne), (.word "eq", .eq), (.word "neq", .ne)]
  | 3 => [(.sign "<=", .le), (.sign ">=", .ge), (.sign "<", .lt), (.sign ">", .gt),
      (.word "lte", .le), (.word "gte", .ge), (.word "lt", .lt), (.word "gt", .gt)]
  | 4 => [(.sign "+", .add), (.sign "-", .sub)]
  | 5 => [(.sign "*", .mul), (.sign "/", .div), (.sign "%", .rem)]
  | _ => []

/-- The unary operators. -/
inductive UnaryOp where
  | not
  | negate
  deriving DecidableEq, Repr

/-- The expression that a unary operator makes. -/
def UnaryOp.apply : UnaryOp → Expr → Expr
  | .not, e => .not e
  | .negate, e => .negate e

/-- A unary operator. An exclamation mark before an equals sign is none. -/
def unary? (s : List Char) : Option (Reading UnaryOp s) :=
  match oneOf? [(.sign "!", UnaryOp.not), (.word "not", .not), (.sign "-", .negate)] s with
  | none => none
  | some r => if s.head? = some '!' ∧ r.rest.head? = some '=' then none else some r

/-! ## Literals -/

/-- The words that stand for values. -/
def constants : List (Spelling × Value) :=
  [(.word "null", .null), (.word "true", .bool true), (.word "false", .bool false)]

/-- The value of a numeral: an integer of 64 bits, or a finite binary64 number. -/
def numeralValue? (whole fraction : List Char) : Option Value :=
  if fraction.isEmpty then
    let n := Decimal.digitsValue whole
    if n < 0x8000000000000000 then some (.ofNat n) else none
  else
    (Number.ofFloat? (Decimal.nearest (Decimal.digitsValue (whole ++ fraction))
      (-(fraction.length : Int)))).map .number

/-- The fraction after a point, if a digit follows the point. -/
def fraction : List Char → List Char × List Char
  | '.' :: rest =>
    let digits := spanDigits rest
    if digits.1.isEmpty then ([], '.' :: rest) else digits
  | rest => ([], rest)

theorem length_fraction_le (s : List Char) : (fraction s).2.length ≤ s.length := by
  unfold fraction
  split
  · rename_i rest
    dsimp only
    split
    · simp
    · have := length_dropWhile_le Char.isDigit rest
      simp only [spanDigits, List.length_cons]
      omega
  · simp

/-- A number. -/
def number? (s : List Char) : Option (Reading Value s) :=
  match s with
  | [] => none
  | c :: rest =>
    if c.isDigit then
      let digits := rest.takeWhile Char.isDigit
      let tail := fraction (rest.dropWhile Char.isDigit)
      (numeralValue? (c :: digits) tail.1).map fun v => ⟨v, tail.2, by
        have h₁ := length_fraction_le (rest.dropWhile Char.isDigit)
        have h₂ := length_dropWhile_le Char.isDigit rest
        simp only [tail, List.length_cons]
        omega⟩
    else none

/-- The character that a backslash and `c` stand for. -/
def escaped (c : Char) : Char :=
  match c with
  | 'n' => '\n'
  | 't' => '\t'
  | 'r' => '\r'
  | c => c

/-- The characters up to the closing quote, and what follows it. -/
def quoted? (quote : Char) : List Char → Option (List Char × List Char)
  | [] => none
  | ['\\'] => none
  | '\\' :: c :: rest => (quoted? quote rest).map fun r => (escaped c :: r.1, r.2)
  | c :: rest =>
    if c = quote then some ([], rest) else (quoted? quote rest).map fun r => (c :: r.1, r.2)

theorem length_of_quoted? {quote : Char} {s body rest : List Char}
    (h : quoted? quote s = some (body, rest)) : rest.length < s.length := by
  fun_induction quoted? quote s generalizing body rest with
  | case1 => simp at h
  | case2 => simp at h
  | case3 c s ih =>
    obtain ⟨r, hr, he⟩ := Option.map_eq_some_iff.1 h
    obtain ⟨-, rfl⟩ := Prod.mk.inj he
    have := ih hr
    simp only [List.length_cons]
    omega
  | case4 s =>
    obtain ⟨-, rfl⟩ := Prod.mk.inj (Option.some.inj h)
    simp
  | case5 c s _ _ hne ih =>
    obtain ⟨r, hr, he⟩ := Option.map_eq_some_iff.1 h
    obtain ⟨-, rfl⟩ := Prod.mk.inj he
    have := ih hr
    simp only [List.length_cons]
    omega

/-- A string in quotes of either kind. -/
def string? (s : List Char) : Option (Reading String s) :=
  match s with
  | [] => none
  | q :: body =>
    if q = '"' ∨ q = '\'' then
      match h : quoted? q body with
      | some (text, rest) => some ⟨.ofList text, rest, by
          have := length_of_quoted? h
          simp only [List.length_cons]
          omega⟩
      | none => none
    else none

/-- A literal or a name. -/
def atom? (s : List Char) : Option (Reading Expr s) :=
  match oneOf? constants s, number? s, string? s, name? s with
  | some r, _, _, _ => some (r.map .literal)
  | none, some r, _, _ => some (r.map .literal)
  | none, none, some r, _ => some (r.map fun text => .literal (.string text))
  | none, none, none, some r => some (r.map .name)
  | none, none, none, none => none

end SqlTemplate.Expr
