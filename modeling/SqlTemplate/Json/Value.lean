import SqlTemplate.Entries

/-!
# Values

The values that parameters, bindings and results hold: those of JSON, with integers kept apart
from binary64 numbers. The entries of an object stand in ascending order of their keys.
-/

namespace SqlTemplate

/-- A number: an integer, or a finite binary64 number. -/
inductive Number where
  | int (value : Int)
  | float (value : Float)
  deriving DecidableEq

/-- A value. -/
inductive Value where
  | null
  | bool (value : Bool)
  | number (value : Number)
  | string (value : String)
  | array (items : List Value)
  | object (fields : List (String × Value))

instance : Inhabited Value := ⟨.null⟩

namespace Number

/-- Equality of numbers of one kind; an integer never equals a binary64 number. -/
protected def same : Number → Number → Bool
  | .int a, .int b => a = b
  | .float a, .float b => a == b
  | _, _ => false

/-- The finite binary64 number, and null in the place of any other. -/
def ofFloat? (x : Float) : Option Number :=
  if x.isFinite then some (.float x) else none

end Number

namespace Value

/-- The integer as a value. -/
def ofInt (n : Int) : Value :=
  .number (.int n)

/-- The count as a value. -/
def ofNat (n : Nat) : Value :=
  .number (.int n)

/-- A binary64 number as a value; numbers that are not finite become null. -/
def ofFloat (x : Float) : Value :=
  match Number.ofFloat? x with
  | some n => .number n
  | none => .null

/-- The string, or null where there is none. -/
def ofString? : Option String → Value
  | some s => .string s
  | none => .null

/-- The object with the given fields; a later field replaces an earlier one of its name. -/
def ofFields (fields : List (String × Value)) : Value :=
  .object (Entries.ofList fields)

/-- Whether a value is null. -/
def isNull : Value → Bool
  | .null => true
  | _ => false

/-- Whether a value is a string. -/
def isString : Value → Bool
  | .string _ => true
  | _ => false

/-- The kind of a value as messages name it. -/
def kind : Value → String
  | .null => "null"
  | .bool _ => "boolean"
  | .number _ => "number"
  | .string _ => "string"
  | .array _ => "list"
  | .object _ => "map"

mutual

/-- Structural equality, in which numbers of different kinds differ. -/
def same : Value → Value → Bool
  | .null, .null => true
  | .bool a, .bool b => a == b
  | .number a, .number b => a.same b
  | .string a, .string b => a == b
  | .array a, .array b => sameItems a b
  | .object a, .object b => sameFields a b
  | _, _ => false

/-- Equality of lists, item by item. -/
def sameItems : List Value → List Value → Bool
  | [], [] => true
  | a :: as, b :: bs => same a b && sameItems as bs
  | _, _ => false

/-- Equality of maps, entry by entry. -/
def sameFields : List (String × Value) → List (String × Value) → Bool
  | [], [] => true
  | (k, a) :: as, (l, b) :: bs => k == l && same a b && sameFields as bs
  | _, _ => false

end

end Value

end SqlTemplate
