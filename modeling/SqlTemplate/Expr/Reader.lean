import SqlTemplate.Expr.Token
import SqlTemplate.Failure

/-!
# Reading expressions

Binary operators associate to the left and bind on six levels, unary operators bind tighter, and
properties, keys and calls bind tightest. Where an expression is due and none is there, the reader
stops with the text that was left at that place. A call whose arguments cannot be read is a
property, and a key that cannot be read is left to whatever follows.
-/

namespace SqlTemplate.Expr

open Text

/-- An expression at the front of a text, or the text that was left where none was found. -/
abbrev Result (s : List Char) := Except (List Char) (Reading Expr s)

/-- A value and what is left of a text, of which nothing need have been read. -/
abbrev Partly (α : Type) (s : List Char) := α × { r : List Char // r.length ≤ s.length }

/-- A part of a result that left no more than `s`, as a reading of a longer text. -/
def Partly.reading {α : Type} {s t : List Char} (p : Partly α s) (h : s.length < t.length) :
    Reading α t :=
  ⟨p.1, p.2.1, Nat.lt_of_le_of_lt p.2.2 h⟩

/-- A name after a point. -/
def member? (s : List Char) : Option (Reading String s) := do
  let point ← Reading.char? '.' (skipGap s)
  let name ← anyName? (skipGap point.rest)
  return ⟨name.value, name.rest, by
    have h₁ := length_skipGap_le s
    have h₂ := point.shorter
    have h₃ := length_skipGap_le point.rest
    have h₄ := name.shorter
    omega⟩

private theorem lex_of_le {a b m n : Nat} (h : a ≤ b) (hm : m < n) :
    Prod.Lex (· < ·) (· < ·) (a, m) (b, n) := by
  rcases Nat.lt_or_eq_of_le h with h | rfl
  · exact .left _ _ h
  · exact .right _ hm

mutual

/-- An expression whose operators are at least as tight as a level. -/
def readLevel (level : Nat) (s : List Char) : Result s :=
  if level < levels then do
    let first ← readLevel (level + 1) s
    have := first.shorter
    let more ← readOperands level first.value first.rest
    return more.reading first.shorter
  else readUnary s
termination_by (s.length, 6 + (levels - level))

/-- The operators of a level that follow a left operand, with their right operands. -/
def readOperands (level : Nat) (left : Expr) (s : List Char) :
    Except (List Char) (Partly Expr s) :=
  match oneOf? (operators level) (skipGap s) with
  | none => .ok (left, ⟨s, Nat.le_refl _⟩)
  | some op => do
    have hop : (skipGap op.rest).length < s.length := by
      have h₁ := length_skipGap_le s
      have h₂ := op.shorter
      have h₃ := length_skipGap_le op.rest
      omega
    let right ← readLevel (level + 1) (skipGap op.rest)
    have hright : right.rest.length < s.length := Nat.lt_trans right.shorter hop
    let (e, ⟨rest, h⟩) ← readOperands level (.binary op.value left right.value) right.rest
    return (e, ⟨rest, by omega⟩)
termination_by (s.length, 0)

/-- A unary operator before its operand, or a postfix expression. -/
def readUnary (s : List Char) : Result s :=
  have hgap := length_skipGap_le s
  match unary? (skipGap s) with
  | some op => do
    have hop : op.rest.length < s.length := Nat.lt_of_lt_of_le op.shorter hgap
    let operand ← readUnary op.rest
    return ⟨op.value.apply operand.value, operand.rest, Nat.lt_trans operand.shorter hop⟩
  | none => do
    let e ← readPostfix (skipGap s)
    return e.widen hgap
termination_by (s.length, 5)
decreasing_by
  · exact Prod.Lex.left _ _ hop
  · exact lex_of_le hgap (by omega)

/-- A primary expression with its properties, keys and calls. -/
def readPostfix (s : List Char) : Result s := do
  let target ← readPrimary s
  have := target.shorter
  return (readSteps target.value target.rest).reading target.shorter
termination_by (s.length, 4)

/-- A literal, a name, or an expression in parentheses. -/
def readPrimary (s : List Char) : Result s :=
  match atom? s with
  | some r => .ok r
  | none =>
    match Reading.char? '(' s with
    | none => .error s
    | some opening =>
      have hin : (skipGap opening.rest).length < s.length := by
        have h₁ := opening.shorter
        have h₂ := length_skipGap_le opening.rest
        omega
      match readLevel 0 (skipGap opening.rest) with
      | .error _ => .error s
      | .ok e =>
        match Reading.char? ')' (skipGap e.rest) with
        | none => .error s
        | some closing => .ok ⟨e.value, closing.rest, by
            have h₁ := e.shorter
            have h₂ := length_skipGap_le e.rest
            have h₃ := closing.shorter
            omega⟩
termination_by (s.length, 3)

/-- The properties, calls and keys that follow a target. -/
def readSteps (target : Expr) (s : List Char) : Partly Expr s :=
  match member? s with
  | some field =>
    have hfield := field.shorter
    match readArguments? field.rest with
    | some arguments =>
      have := arguments.shorter
      let (e, ⟨rest, h⟩) :=
        readSteps (.call target field.value arguments.value) arguments.rest
      (e, ⟨rest, by omega⟩)
    | none =>
      let (e, ⟨rest, h⟩) := readSteps (.property target field.value) field.rest
      (e, ⟨rest, by omega⟩)
  | none =>
    match readKey? s with
    | some key =>
      have := key.shorter
      let (e, ⟨rest, h⟩) := readSteps (.index target key.value) key.rest
      (e, ⟨rest, by omega⟩)
    | none => (target, ⟨s, Nat.le_refl _⟩)
termination_by (s.length, 2)

/-- A key in brackets. -/
def readKey? (s : List Char) : Option (Reading Expr s) :=
  match Reading.char? '[' (skipGap s) with
  | none => none
  | some opening =>
    have hin : (skipGap opening.rest).length < s.length := by
      have h₁ := length_skipGap_le s
      have h₂ := opening.shorter
      have h₃ := length_skipGap_le opening.rest
      omega
    match readLevel 0 (skipGap opening.rest) with
    | .error _ => none
    | .ok e =>
      (Reading.char? ']' (skipGap e.rest)).map fun closing => ⟨e.value, closing.rest, by
        have h₁ := e.shorter
        have h₂ := length_skipGap_le e.rest
        have h₃ := closing.shorter
        omega⟩
termination_by (s.length, 1)

/-- Arguments in parentheses, with commas between them. -/
def readArguments? (s : List Char) : Option (Reading (List Expr) s) :=
  match Reading.char? '(' (skipGap s) with
  | none => none
  | some opening =>
    have hin : opening.rest.length < s.length := by
      have h₁ := length_skipGap_le s
      have h₂ := opening.shorter
      omega
    let (arguments, ⟨rest, h⟩) := readList opening.rest
    (Reading.char? ')' (skipGap rest)).map fun closing => ⟨arguments, closing.rest, by
      have h₁ := length_skipGap_le rest
      have h₂ := closing.shorter
      omega⟩
termination_by (s.length, 0)

/-- Expressions with commas between them, up to the last that can be read. -/
def readList (s : List Char) : Partly (List Expr) s :=
  match readLevel 0 (skipGap s) with
  | .error _ => ([], ⟨s, Nat.le_refl _⟩)
  | .ok e =>
    have he : (skipGap e.rest).length < s.length := by
      have h₁ := length_skipGap_le s
      have h₂ := e.shorter
      have h₃ := length_skipGap_le e.rest
      omega
    let (more, ⟨rest, h⟩) := readMore (skipGap e.rest)
    (e.value :: more, ⟨rest, by omega⟩)
termination_by (s.length, 20)
decreasing_by
  · exact lex_of_le (length_skipGap_le s) (by simp only [levels]; omega)
  · exact Prod.Lex.left _ _ he

/-- The expressions after commas. -/
def readMore (s : List Char) : Partly (List Expr) s :=
  match Reading.char? ',' s with
  | none => ([], ⟨s, Nat.le_refl _⟩)
  | some comma =>
    have hcomma : (skipGap comma.rest).length < s.length := by
      have h₁ := comma.shorter
      have h₂ := length_skipGap_le comma.rest
      omega
    match readLevel 0 (skipGap comma.rest) with
    | .error _ => ([], ⟨s, Nat.le_refl _⟩)
    | .ok e =>
      have he : (skipGap e.rest).length < s.length := by
        have h₁ := e.shorter
        have h₂ := length_skipGap_le e.rest
        omega
      let (more, ⟨rest, h⟩) := readMore (skipGap e.rest)
      (e.value :: more, ⟨rest, by omega⟩)
termination_by (s.length, 0)

end

/-- The expression that a source text writes. -/
def parse (source : String) : Except ExprFault Expr :=
  let chars := source.toList
  let offset (rest : List Char) := byteLength chars - byteLength rest
  match readLevel 0 chars with
  | .error rest => .error (.expectedExpression (offset rest))
  | .ok e =>
    let rest := skipGap e.rest
    if rest.isEmpty then .ok e.value else .error (.trailingInput (offset rest))

end SqlTemplate.Expr
