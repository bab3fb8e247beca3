import SqlTemplate.Decimal.Reading
import SqlTemplate.Decimal.Remainder
import SqlTemplate.Expr.Basic
import SqlTemplate.Failure
import SqlTemplate.Json.Text
import SqlTemplate.Text.Blank

/-!
# Operations on values

Truth, equality, order and arithmetic of values. Strings that write a number take part in
arithmetic and in comparisons with numbers. Integers are those of 64 bits with a sign; arithmetic
that leaves their range goes on in binary64.
-/

namespace SqlTemplate

open Text

/-- A number as a binary64 number. -/
def Number.toFloat : Number → Float
  | .int n => Float.ofInt n
  | .float x => x

/-- The integer where it fits in 64 bits, else the binary64 number nearest to it. -/
def Number.ofInteger (n : Int) : Number :=
  if isInt64 n then .int n else .float (Float.ofInt n)

/-- The number that a text writes between blanks. -/
def Number.ofText? (s : String) : Option Number :=
  let s := trim s.toList
  match (integer? s).filter isInt64 with
  | some n => some (.int n)
  | none => (Decimal.float? s).map .float

namespace Value

/-- The number that a value is or writes. -/
def number? : Value → Option Number
  | .number (.int n) => some (.ofInteger n)
  | .number (.float x) => some (.float x)
  | .string s => Number.ofText? s
  | _ => none

/-- Whether a value counts as true: not null, not false and not zero. -/
def isTruthy : Value → Bool
  | .null => false
  | .bool b => b
  | .number n => n.toFloat != 0.0
  | _ => true

/-- Equality of the numbers that two values are or write. -/
def sameNumber (left right : Value) : Bool :=
  match left.number?, right.number? with
  | some (.int a), some (.int b) => a == b
  | some a, some b => a.toFloat == b.toFloat
  | _, _ => false

/-- Equality as the language has it: null equals null alone, a number equals what writes the same
number, and otherwise values are compared part by part. -/
def looselyEquals (left right : Value) : Bool :=
  match left, right with
  | .null, .null => true
  | .null, _ | _, .null => false
  | .string a, .string b => a == b
  | .bool a, .bool b => a == b
  | .number _, _ | _, .number _ => sameNumber left right
  | _, _ => same left right

/-- The order of two binary64 numbers, which a number that is not one lacks. -/
def compareFloats? (a b : Float) : Option Ordering :=
  if a < b then some .lt
  else if a == b then some .eq
  else if b < a then some .gt
  else none

/-- The order of two strings by their scalar values. -/
def compareStrings (a b : String) : Ordering :=
  if a < b then .lt else if a = b then .eq else .gt

/-- The order of two values: of strings among themselves, else of the numbers they are or
write. -/
def compare? (left right : Value) : Option Ordering :=
  match left, right with
  | .string a, .string b => some (compareStrings a b)
  | _, _ =>
    match left.number?, right.number? with
    | some (.int a), some (.int b) => some (compare a b)
    | some a, some b => compareFloats? a.toFloat b.toFloat
    | _, _ => none

/-- The keys and items of a collection: positions for a list, names for a map. -/
def entries (v : Value) : Except ExprFault (List (Value × Value)) :=
  match v with
  | .array items => .ok (items.zipIdx.map fun (item, i) => (.ofNat i, item))
  | .object fields => .ok (fields.map fun (name, item) => (.string name, item))
  | .null => .error .nullCollection
  | v => .error (.notIterable v.kind)

end Value

namespace BinaryOp

/-- The exact result of an operator on integers, truncated toward zero for a quotient. It is
missing where there is none of 64 bits; a remainder is missing where the quotient is. -/
def onIntegers? (op : BinaryOp) (a b : Int) : Option Int :=
  match op with
  | .add => word? (a + b)
  | .sub => word? (a - b)
  | .mul => word? (a * b)
  | .div => word? (a.tdiv b)
  | .rem => (word? (a.tdiv b)).map fun _ => a.tmod b
  | _ => none
where
  word? (n : Int) : Option Int := if isInt64 n then some n else none

/-- An operator on binary64 numbers. -/
def onFloats (op : BinaryOp) (a b : Float) : Float :=
  match op with
  | .add => a + b
  | .sub => a - b
  | .mul => a * b
  | .div => a / b
  | .rem => Decimal.remainder a b
  | _ => 0.0 / 0.0

/-- Whether an operator divides. -/
def divides : BinaryOp → Bool
  | .div | .rem => true
  | _ => false

/-- An arithmetic operator on values. Only a division of integers fails on zero. -/
def arithmetic (op : BinaryOp) (left right : Value) : Except ExprFault Value :=
  match left.number?, right.number? with
  | some (.int a), some (.int b) =>
    if op.divides && b == 0 then .error .divisionByZero
    else match op.onIntegers? a b with
      | some n => .ok (.ofInt n)
      | none => .ok (.ofFloat (op.onFloats (Float.ofInt a) (Float.ofInt b)))
  | some a, some b => .ok (.ofFloat (op.onFloats a.toFloat b.toFloat))
  | _, _ => .error (.mismatch (.arithmetic left.kind right.kind))

/-- Whether an order satisfies a comparison. -/
def admits (op : BinaryOp) (order : Ordering) : Bool :=
  match op with
  | .lt => order.isLT
  | .le => order.isLE
  | .gt => order.isGT
  | _ => order.isGE

/-- A comparison of values, which is false where one of them is null. -/
def comparison (op : BinaryOp) (left right : Value) : Except ExprFault Value :=
  if left.isNull || right.isNull then .ok (.bool false)
  else match Value.compare? left right with
    | some order => .ok (.bool (op.admits order))
    | none => .error (.mismatch (.comparison left.kind right.kind))

/-- A binary operator on the values of its operands. -/
def apply (op : BinaryOp) (left right : Value) : Except ExprFault Value :=
  match op with
  | .eq => .ok (.bool (left.looselyEquals right))
  | .ne => .ok (.bool (!left.looselyEquals right))
  | .lt | .le | .gt | .ge => op.comparison left right
  | .add =>
    if left.isString || right.isString then .ok (.string (left.text ++ right.text))
    else op.arithmetic left right
  | _ => op.arithmetic left right

end BinaryOp

/-- The negative of the number that a value is or writes. -/
def Value.negated (v : Value) : Except ExprFault Value :=
  match v.number? with
  | some (.int n) =>
    if isInt64 (-n) then .ok (.ofInt (-n)) else .ok (.ofFloat (-(Float.ofInt n)))
  | some (.float x) => .ok (.ofFloat (-x))
  | none => .error (.mismatch (.negation v.kind))

end SqlTemplate
