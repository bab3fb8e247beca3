import SqlTemplate.Expr.Operation
import SqlTemplate.Expr.Reader
import SqlTemplate.Property.Access
import SqlTemplate.Text.LetterCase

/-!
# Evaluating expressions

The value of an expression in a scope, which resolves names and says how attributes are read.
Operands are evaluated from left to right, and `and` and `or` leave out an operand that cannot
change the result.
-/

namespace SqlTemplate

open Text

/-- What an expression is evaluated in. -/
structure Scope where
  /-- The value that a name stands for, which may be missing. -/
  resolve? : String → Option Value
  access : Access

namespace Expr

/-- The item of a value under a key. A key that is missing reads as null. -/
def item (target key : Value) : Except ExprFault Value :=
  match target with
  | .null => .error (.nullTarget key.text)
  | .array items =>
    match key.number? with
    | some (.int n) =>
      if 0 ≤ n then .ok (items[n.toNat]?.getD .null)
      else .error (.mismatch (.listIndex key.kind))
    | _ => .error (.mismatch (.listIndex key.kind))
  | .object fields => .ok ((Entries.find? fields key.text).getD .null)
  | _ => .error (.mismatch (.indexing target.kind))

/-- The number of characters, items or fields. -/
def size? : Value → Option Nat
  | .string s => some s.toList.length
  | .array items => some items.length
  | .object fields => some fields.length
  | _ => none

/-- Whether a string holds a text, a list an equal item, or a map a key. -/
def contains? (target needle : Value) : Option Bool :=
  match target with
  | .string s => some (occursIn needle.text.toList s.toList)
  | .array items => some (items.any (·.looselyEquals needle))
  | .object fields => some (Entries.has fields needle.text)
  | _ => none

/-- A method of strings that takes no argument. -/
def transform? (method : String) : Option (List Char → List Char) :=
  match method with
  | "trim" => some trim
  | "toUpperCase" => some toUpper
  | "toLowerCase" => some toLower
  | _ => none

/-- A method that asks a string for its beginning or its end. -/
def affix? (method : String) : Option (List Char → List Char → Bool) :=
  match method with
  | "startsWith" => some List.isPrefixOf
  | "endsWith" => some List.isSuffixOf
  | _ => none

/-- A call of a method on a value. -/
def invoke (target : Value) (method : String) (arguments : List Value) :
    Except ExprFault Value :=
  let undefinedHere : Except ExprFault Value :=
    .error (.mismatch (.undefinedMethod method target.kind))
  let first : Except ExprFault Value := match arguments with
    | [] => .error (.mismatch (.missingArgument method))
    | value :: _ => .ok value
  if target.isNull then .error (.nullTarget (method ++ "()"))
  else if method = "size" ∨ method = "length" then
    match size? target with
    | some n => .ok (.ofNat n)
    | none => undefinedHere
  else if method = "isEmpty" then
    match size? target with
    | some n => .ok (.bool (n == 0))
    | none => undefinedHere
  else if method = "contains" then do
    let needle ← first
    match contains? target needle with
    | some b => return .bool b
    | none => undefinedHere
  else
    match transform? method, affix? method, target with
    | some f, _, .string s => .ok (.string (mapChars f s))
    | none, some p, .string s => do
      let affix ← first
      return .bool (p affix.text.toList s.toList)
    | none, none, _ => .error (.unknownMethod method)
    | _, _, _ => undefinedHere

mutual

/-- The value of an expression in a scope. -/
def evaluate (scope : Scope) : Expr → Except ExprFault Value
  | .literal value => .ok value
  | .name id =>
    match scope.resolve? id with
    | some value => .ok value
    | none => .error (.unresolved id)
  | .property target id => do
    let target ← evaluate scope target
    if target.isNull then .error (.nullTarget id)
    else match scope.access.get? target id with
      | some value => .ok value
      | none => .error (.unresolved id)
  | .index target key => do
    let target ← evaluate scope target
    let key ← evaluate scope key
    item target key
  | .call target method arguments => do
    let target ← evaluate scope target
    let arguments ← evaluateAll scope arguments
    invoke target method arguments
  | .not operand => do
    let value ← evaluate scope operand
    return .bool (!value.isTruthy)
  | .negate operand => do
    let value ← evaluate scope operand
    value.negated
  | .binary .and left right => do
    let left ← evaluate scope left
    if !left.isTruthy then return .bool false
    let right ← evaluate scope right
    return .bool right.isTruthy
  | .binary .or left right => do
    let left ← evaluate scope left
    if left.isTruthy then return .bool true
    let right ← evaluate scope right
    return .bool right.isTruthy
  | .binary op left right => do
    let left ← evaluate scope left
    let right ← evaluate scope right
    op.apply left right

/-- The values of several expressions, from left to right. -/
def evaluateAll (scope : Scope) : List Expr → Except ExprFault (List Value)
  | [] => .ok []
  | e :: rest => do
    let value ← evaluate scope e
    let values ← evaluateAll scope rest
    return value :: values

end

end Expr

/-- How the text of an expression is given a value in a scope. -/
structure Evaluator where
  value : Scope → String → Except ExprFault Value

namespace Evaluator

/-- The expression language of this library. -/
def standard : Evaluator where
  value scope source := (Expr.parse source).bind (Expr.evaluate scope)

/-- The language in which every text stands for itself. -/
def echo : Evaluator where
  value _ source := .ok (.string source)

/-- Whether an expression counts as true. -/
def boolean (evaluator : Evaluator) (scope : Scope) (source : String) : Except ExprFault Bool :=
  (evaluator.value scope source).map Value.isTruthy

/-- The keys and items of the collection that an expression stands for. -/
def entries (evaluator : Evaluator) (scope : Scope) (source : String) :
    Except ExprFault (List (Value × Value)) :=
  (evaluator.value scope source).bind Value.entries

end Evaluator

end SqlTemplate
