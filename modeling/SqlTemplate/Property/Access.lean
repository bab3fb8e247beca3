import SqlTemplate.Json.Value
import SqlTemplate.Property.Path
import SqlTemplate.Text.Numeral

/-!
# Access to properties

How attributes of a value are read and written, and how a path is followed through them. An
access policy reads and writes one attribute; reading along a path stops where there is no such
attribute, and writing along a path makes the objects that are missing on its way.
-/

namespace SqlTemplate

open Text

/-- A policy for the attributes of values. -/
structure Access where
  /-- The attribute of a value, which may be missing. -/
  get? : Value → String → Option Value
  /-- The value with an attribute written, if it can hold it. -/
  set? : Value → String → Value → Option Value

namespace Access

/-- The item of a list at a position written in digits; null beyond the end. -/
def item? (items : List Value) (key : String) : Option Value :=
  (position? key.toList).map fun i => items[i]?.getD .null

/-- The list with the item at a position replaced. -/
def setItem? (items : List Value) (key : String) (value : Value) : Option (List Value) :=
  (position? key.toList).bind fun i =>
    if i < items.length then some (items.set i value) else none

/-- Writing as every policy here has it: any field of an object, and the items of a list. -/
def write? (target : Value) (name : String) (value : Value) : Option Value :=
  match target with
  | .object fields => some (.object (Entries.insert fields name value))
  | .array items => (setItem? items name value).map .array
  | _ => none

/-- The policy under which a field that an object lacks reads as null. -/
def lenient : Access where
  get?
    | .object fields, name => some ((Entries.find? fields name).getD .null)
    | .array items, name => item? items name
    | _, _ => none
  set? := write?

/-- The policy under which a field that an object lacks is no attribute. -/
def strict : Access where
  get?
    | .object fields, name => Entries.find? fields name
    | .array items, name => item? items name
    | _, _ => none
  set? := write?

/-- The value reached from `root` by one key after another. -/
def follow? (access : Access) (root : Value) : List String → Option Value
  | [] => some root
  | key :: rest => (access.get? root key).bind fun next => access.follow? next rest

/-- The value at the end of a path. -/
def resolve? (access : Access) (root : Value) (path : String) : Option Value :=
  access.follow? root ((PropertyPath.steps path).map Step.key)

/-- Writes `value` at the end of a list of keys. The result tells whether it was written and is
followed by the root as it is afterwards: null on the way becomes an object, and so does a field
that is missing, even where a later key cannot be followed. -/
def store (access : Access) (root : Value) (keys : List String) (value : Value) : Bool × Value :=
  match keys with
  | [] => (false, root)
  | [last] =>
    match access.set? root last value with
    | some written => (true, written)
    | none => (false, root)
  | key :: rest =>
    match root with
    | .null =>
      let (written, child) := access.store (.object []) rest value
      (written, .object [(key, child)])
    | .object fields =>
      let (written, child) :=
        access.store ((Entries.find? fields key).getD (.object [])) rest value
      (written, .object (Entries.insert fields key child))
    | .array items =>
      match (position? key.toList).bind fun i => (items[i]?).map fun item => (i, item) with
      | some (i, item) =>
        let (written, child) := access.store item rest value
        (written, .array (items.set i child))
      | none => (false, root)
    | _ => (false, root)

/-- Writes `value` at the end of a path. -/
def assign (access : Access) (root : Value) (path : String) (value : Value) : Bool × Value :=
  access.store root ((PropertyPath.steps path).map Step.key) value

end Access

end SqlTemplate
