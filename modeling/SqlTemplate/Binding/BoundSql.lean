import SqlTemplate.Binding.Mapping
import SqlTemplate.Marker
import SqlTemplate.Property.Access
import SqlTemplate.Text.Blank

/-!
# Bound SQL

SQL in which placeholders stand for the markers of a text, with one mapping for each of them in
order. The value of a mapping comes from a binding, where its path begins with the name of one,
else from the parameter. The path behind the name is cut off by bytes, and where the cut would fall
within a character no values can be given.
-/

namespace SqlTemplate

open Text

/-- How placeholders are written. -/
inductive PlaceholderStyle where
  | question
  | dollar
  deriving DecidableEq, Repr

/-- The placeholder of the `n`th parameter, where the first is number one. -/
def PlaceholderStyle.write : PlaceholderStyle → (n : Nat) → String
  | .question, _ => "?"
  | .dollar, n => "$" ++ toString n

/-- SQL with the parameters that its placeholders bind. -/
structure BoundSql where
  sql : String
  mappings : List Mapping
  parameter : Value
  /-- The bindings that the evaluation made. -/
  additional : Entries Value := []

namespace Marker

/-- Pieces put together, with a placeholder for each marker, counted on from `n`. -/
def number (style : PlaceholderStyle) (n : Nat) : List Piece → List Char
  | [] => []
  | .char c :: rest => c :: number style n rest
  | .token _ :: rest => (style.write (n + 1)).toList ++ number style (n + 1) rest

end Marker

/-- A text with placeholders in the place of its markers, and their mappings. The first body that
is no mapping is a failure. -/
def bindPlaceholders (style : PlaceholderStyle) (hint : Option String) (text : String) :
    Except Failure (String × List Mapping) := do
  let mappings ← (Marker.placeholder.bodies text).mapM (Mapping.parse · hint)
  return (.ofList (Marker.number style 0 (Marker.placeholder.pieces text.toList)), mappings)

namespace BoundSql

/-- The name whose binding a property may come from: the first step of its path where that is a
name, else the whole property. -/
def root (property : String) : String :=
  match PropertyPath.steps property with
  | .name name :: _ => name
  | _ => property

/-- The path from a binding: the property without as many bytes as the binding's name has, and
without the points after them. There is none where that many bytes end within a character, or
behind the end of the property. -/
def afterRoot? (property root : String) : Option String :=
  (cutAtByte? (byteLength root.toList) (trimStart property.toList)).map fun cut =>
    .ofList (cut.2.dropWhile (· == '.'))

/-- The value of a property that comes from no binding. A parameter that has no attributes stands
for every property. -/
def parameterValue (b : BoundSql) (access : Access) (property : String) : Value :=
  match b.parameter with
  | .object _ | .array _ => (access.resolve? b.parameter property).getD .null
  | scalar => scalar

/-- The value of a property. It is missing where the root is the name of a binding and there is no
path from it. -/
def value? (b : BoundSql) (access : Access) (property : String) : Option Value :=
  let root := root property
  match b.additional.find? root with
  | some bound => (afterRoot? property root).map fun path =>
      (access.resolve? bound path).getD .null
  | none => some (b.parameterValue access property)

/-- The value of each mapping, in the order of the placeholders, if none of them is missing. -/
def values? (b : BoundSql) (access : Access) : Option (List Value) :=
  b.mappings.mapM fun m => b.value? access m.property

end BoundSql

end SqlTemplate
