import SqlTemplate.Entries

/-!
# TOML documents

The values of a TOML document, and the tables that its lines build up. A table remembers how it
came about, because that decides what may still be added to it: a table in braces is closed, a
table with a header of its own is closed to dotted keys, and a table that a header or a dotted key
merely implied is not closed to the same kind of line.
-/

namespace SqlTemplate

/-- How a table came about. -/
inductive Toml.Origin where
  /-- Braces. -/
  | closed
  /-- A header of its own. -/
  | declared
  /-- The header of a table inside it. -/
  | implied
  /-- A dotted key. -/
  | dotted
  deriving DecidableEq, Repr

/-- A value of a TOML document. -/
inductive Toml where
  | string (value : String)
  | boolean (value : Bool)
  | integer (value : Int)
  | float (value : Float)
  /-- A date, a time or both, as written. -/
  | moment (text : String)
  | array (items : List Toml)
  | table (origin : Toml.Origin) (fields : List (String × Toml))
  /-- The tables under a header in double brackets, the last first. -/
  | tables (reversed : List (List (String × Toml)))

namespace Toml

/-- The fields of a table. -/
abbrev Fields := Entries Toml

/-- Changes the table that a path of keys leads to, where tables that are missing come about with
the given origin. Paths lead through the last table under a header in double brackets. They do not
lead into a table in braces, and dotted keys do not lead into a table that is declared. -/
def within (origin : Origin) (fields : Fields) (change : Origin → Fields → Option Fields)
    (here : Origin) : List String → Option Fields
  | [] => change here fields
  | key :: rest => do
    match (fields.find? key).getD (.table origin []) with
    | .table found inner =>
      if found = .closed ∨ (origin = .dotted ∧ found = .declared) then none
      let inner ← within origin inner change found rest
      return fields.insert key (.table found inner)
    | .tables (last :: before) =>
      let last ← within origin last change .declared rest
      return fields.insert key (.tables (last :: before))
    | _ => none

/-- Sets the value of a dotted key in a table. A key is set once, and a path of dotted keys ends in
a table that dotted keys made. -/
def assign (fields : Fields) (here : Origin) (path : List String) (key : String) (value : Toml) :
    Option Fields :=
  within .dotted fields (fun origin inner =>
    if (origin = .dotted ↔ path.isEmpty) ∨ inner.has key then none
    else some (inner.insert key value)) here path

/-- Opens the table of a header. It may have been implied, but not declared. -/
def openTable (root : Fields) (path : List String) (key : String) : Option Fields :=
  within .implied root (fun _ inner =>
    match inner.find? key with
    | none => some (inner.insert key (.table .declared []))
    | some (.table .implied fields) => some (inner.insert key (.table .declared fields))
    | some _ => none) .declared path

/-- Opens a new table under a header in double brackets. -/
def openItem (root : Fields) (path : List String) (key : String) : Option Fields :=
  within .implied root (fun _ inner =>
    match inner.find? key with
    | none => some (inner.insert key (.tables [[]]))
    | some (.tables items) => some (inner.insert key (.tables ([] :: items)))
    | some _ => none) .declared path

end Toml

end SqlTemplate
