import SqlTemplate.Statement.Source

/-!
# Statements

A compiled template with the metadata of its execution, under a qualified id. A statement may have
a key generator, which obtains keys from the database; one kind of generator has a statement of
its own, whose id is marked by a suffix.
-/

namespace SqlTemplate

open Text

/-- The kinds of statement. -/
inductive Command where
  | select
  | insert
  | update
  | delete
  deriving DecidableEq, Repr

namespace Command

/-- The command of a tag. -/
def ofTag? : String → Option Command
  | "select" => some .select
  | "insert" => some .insert
  | "update" => some .update
  | "delete" => some .delete
  | _ => none

/-- The name of a command. -/
def name : Command → String
  | .select => "SELECT"
  | .insert => "INSERT"
  | .update => "UPDATE"
  | .delete => "DELETE"

end Command

/-- How a statement is prepared. -/
inductive Preparation where
  | plain
  | prepared
  | callable
  deriving DecidableEq, Repr

namespace Preparation

/-- The name of a way of preparation. -/
def name : Preparation → String
  | .plain => "STATEMENT"
  | .prepared => "PREPARED"
  | .callable => "CALLABLE"

/-- The way of preparation of a name in letters of either case. -/
def ofName? (name : String) : Option Preparation :=
  match mapChars asciiUpper name with
  | "STATEMENT" => some .plain
  | "PREPARED" => some .prepared
  | "CALLABLE" => some .callable
  | _ => none

/-- The way of preparation that an attribute of an element names. -/
def ofAttribute (element : String) (value : Option String) : Except Failure Preparation :=
  match value with
  | none => .ok .prepared
  | some value =>
    match ofName? value with
    | some preparation => .ok preparation
    | none => .error (.invalidAttribute element "statementType" value)

end Preparation

/-- What the id of a key statement ends in. -/
def keySuffix : String := "!selectKey"

/-- The id after its last point. -/
def shortId (id : String) : String :=
  mapChars (afterLast '.') id

/-- A compiled template with its metadata. -/
structure Definition where
  /-- The id with its namespace. -/
  id : String
  command : Command
  source : Source
  preparation : Preparation := .prepared
  dialect : Option String := none
  parameterType : Option String := none
  resultType : Option String := none
  resultMap : Option String := none
  resultSets : Option String := none
  fetchSize : Option Nat := none
  timeout : Option Nat := none
  flushCache : Bool := command != .select
  useCache : Bool := command == .select
  resultOrdered : Bool := false
  keyProperties : List String := []
  keyColumns : List String := []

namespace Definition

/-- Whether a definition is that of a key statement. -/
def isKeyStatement (d : Definition) : Bool :=
  keySuffix.toList.isSuffixOf d.id.toList

/-- The bound SQL of a definition. -/
def bind (d : Definition) (engine : Engine) (parameter : Value) (dialect : Option String) :
    Except Failure BoundSql :=
  d.source.bind engine parameter dialect

end Definition

/-- How the keys of inserted records are obtained. -/
inductive KeyGenerator where
  | absent
  /-- The keys that the database generated, read after the statement. -/
  | generated
  /-- A key statement, run before or after the statement. -/
  | selected (key : Definition) (before : Bool)

/-- The name of a generator. -/
def KeyGenerator.name : KeyGenerator → String
  | .absent => "none"
  | .generated => "generated"
  | .selected _ true => "selectKey(before)"
  | .selected _ false => "selectKey(after)"

/-- A definition with its key generator. -/
structure Statement extends Definition where
  keys : KeyGenerator := .absent

end SqlTemplate
