import SqlTemplate.Statement.Basic

/-!
# Storing keys

Where the keys that a database returned go: into the key properties of the parameter. A column is
found by the name that the statement gives for its property, or by its position. What was written
before a failure stays written.
-/

namespace SqlTemplate

open Text

/-- A row of a result: names of columns with their values. -/
abbrev Row := List (String × Value)

/-- Writing into a value: it changes the value, also where it fails. -/
abbrev Storing := ExceptT Failure (StateM Value)

namespace Storing

/-- Writes one key. -/
def key (access : Access) (property : String) (value : Value) : Storing Unit := fun target =>
  let (written, target) := access.assign target property value
  (if written then .ok () else .error (.keys (.notWritable property)), target)

/-- The value for the key property at a position: that of the column of its name in letters of
either case, or that of the column at its position where it has no name. -/
def column? (d : Definition) (row : Row) (i : Nat) : Option Value :=
  match d.keyColumns[i]? with
  | some name => (row.find? fun c => sameIgnoringCase c.1 name).map (·.2)
  | none => (row[i]?).map (·.2)

/-- Writes the values of a row into key properties, given with their positions. -/
def columns (access : Access) (d : Definition) (row : Row) : List (String × Nat) → Storing Unit
  | [] => pure ()
  | (property, i) :: rest => do
    match column? d row i with
    | some value => key access property value
    | none => throw (.keys (.noValue d.id property))
    columns access d row rest

/-- Writes the values of a row into the key properties of a record. -/
def record (access : Access) (d : Definition) (row : Row) : Storing Unit :=
  columns access d row d.keyProperties.zipIdx

/-- Writes one row into each of the first records of a list. -/
def records (access : Access) (d : Definition) :
    List Row → List Value → Except Failure Unit × List Value
  | [], records => (.ok (), records)
  | _ :: _, [] => (.ok (), [])
  | row :: rows, first :: others =>
    match record access d row first with
    | (.ok (), first) =>
      let (result, others) := records access d rows others
      (result, first :: others)
    | (.error failure, first) => (.error failure, first :: others)

/-- Writes the rows of generated keys: one for each record of a list, or the first into the
parameter itself. -/
def generated (access : Access) (d : Definition) (rows : List Row) : Storing Unit := fun target =>
  match d.keyProperties, rows with
  | [], _ | _, [] => (.ok (), target)
  | _ :: _, first :: _ =>
    match target with
    | .array items =>
      if items.length < rows.length then
        (.error (.keys (.surplus d.id rows.length items.length)), target)
      else
        let (result, items) := records access d rows items
        (result, .array items)
    | target => record access d first target

/-- The one row that a key statement has to return. -/
def single (d : Definition) : List Row → Except Failure Row
  | [] => .error (.keys (.noRow d.id))
  | [row] => .ok row
  | _ :: _ :: _ => .error (.keys (.severalRows d.id))

/-- The value of a single key property: the column of exactly its name, or the only column. -/
def only? (property : String) (row : Row) : Option Value :=
  match row.lookup property, row with
  | some value, _ => some value
  | none, [(_, value)] => some value
  | none, _ => none

/-- Writes the row of a key statement. -/
def selected (access : Access) (d : Definition) (rows : List Row) : Storing Unit := do
  match single d rows with
  | .error failure => throw failure
  | .ok row =>
    match d.keyProperties with
    | [property] =>
      match only? property row with
      | some value => key access property value
      | none => throw (.keys (.noColumn d.id property))
    | _ => record access d row

end Storing

end SqlTemplate
