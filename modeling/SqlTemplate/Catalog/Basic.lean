import SqlTemplate.Catalog.Variants
import SqlTemplate.Statement.Basic

/-!
# Catalogs

A catalog holds statements under their ids, with their variants by dialect. A statement is found
under its qualified id, or under its short id where only one qualified id has it. A draft is a
catalog while documents are loaded into it, with the fragments that statements include and the
statements that still wait for one.
-/

namespace SqlTemplate

/-- The statements of a configuration. -/
structure Catalog where
  /-- The active dialect. -/
  dialect : Option String := none
  /-- Whether inserts obtain generated keys unless they say otherwise. -/
  generatedKeys : Bool := false
  engine : Engine := {}
  statements : Entries (Variants Statement) := []
  /-- The qualified ids that have a short id, in the order of their registration. -/
  owners : Entries (List String) := []

namespace Catalog

/-- The qualified id that an id stands for. -/
def qualified (c : Catalog) (id : String) : Except Failure String :=
  if c.statements.has id then .ok id
  else match c.owners.find? id with
    | some [owner] => .ok owner
    | some (_ :: _ :: _) => .error (.ambiguousStatement id)
    | _ => .error (.statementNotFound id)

/-- The statement under an id for a dialect. -/
def statementFor (c : Catalog) (id : String) (dialect : Option String) :
    Except Failure Statement := do
  let qualified ← c.qualified id
  match (c.statements.find? qualified).bind (·.resolve? dialect) with
  | some statement => return statement
  | none => throw (.statementNotFound id)

/-- The statement under an id for the active dialect. -/
def statement (c : Catalog) (id : String) : Except Failure Statement :=
  c.statementFor id c.dialect

/-- Whether there is a statement under an id for the active dialect. -/
def hasStatement (c : Catalog) (id : String) : Bool :=
  (c.statement id).toBool

/-- The ids of the statements, in order, without those of key statements. -/
def ids (c : Catalog) : List String :=
  Entries.keys (c.statements.filter fun e => e.2.toList.any (!·.isKeyStatement))

/-- The statements under one id in the order of a listing: the one without a dialect, then the
others in the order of their dialects. -/
def listed (v : Variants Statement) : List Statement :=
  v.fallback.toList ++ v.byDialect.values

/-- Every statement but the key statements, in the order of ids and then of dialects. -/
def listing (c : Catalog) : List Statement :=
  c.statements.values.flatMap fun v => (listed v).filter (!·.isKeyStatement)

/-- The bound SQL of a statement for the active dialect. -/
def bind (c : Catalog) (id : String) (parameter : Value) : Except Failure BoundSql := do
  let statement ← c.statement id
  statement.bind c.engine parameter c.dialect

/-- The admission of a statement to the variants under its id. -/
def admission (c : Catalog) (id : String) (dialect : Option String) : Admission :=
  ((c.statements.find? id).getD {}).admission dialect c.dialect

/-- Whether a statement may be registered. One that is there already is a failure. -/
def admits (c : Catalog) (id : String) (dialect : Option String) : Except Failure Bool :=
  match c.admission id dialect with
  | .accept => .ok true
  | .skip => .ok false
  | .duplicate => .error (.duplicate id)

/-- The catalog in which an id is found under its short id. -/
def addOwner (c : Catalog) (id : String) : Catalog :=
  let short := shortId id
  if short = id then c
  else
    let owners := (c.owners.find? short).getD []
    if owners.contains id then c else { c with owners := c.owners.insert short (owners ++ [id]) }

/-- The catalog with a statement registered under its id and dialect. -/
def insert (c : Catalog) (s : Statement) : Catalog :=
  let variants := (c.statements.find? s.id).getD {}
  { c.addOwner s.id with
    statements := c.statements.insert s.id (variants.insert s.dialect s) }

end Catalog

/-- An element of a document, under the namespace of the document. -/
structure Declaration where
  space : String
  element : Element

/-- A catalog while documents are loaded into it. -/
structure Draft extends Catalog where
  fragments : Entries (Variants Element) := []
  /-- The statement elements that wait for a fragment. -/
  pending : List Declaration := []

namespace Draft

/-- The fragment under a qualified id for the active dialect. -/
def fragment? (d : Draft) (id : String) : Option Element :=
  (d.fragments.find? id).bind (·.resolve? d.dialect)

/-- Registers a fragment, unless it is for a dialect that is not active. Its id has an entry from
then on, be it one without variants. -/
def addFragment (d : Draft) (id : String) (dialect : Option String) (fragment : Element) :
    Except Failure Draft :=
  let variants := (d.fragments.find? id).getD {}
  match variants.admission dialect d.dialect with
  | .accept =>
    .ok { d with fragments := d.fragments.insert id (variants.insert dialect fragment) }
  | .skip => .ok { d with fragments := d.fragments.insert id variants }
  | .duplicate => .error (.duplicate id)

/-- The draft with a statement registered under its id and dialect. -/
def insert (d : Draft) (s : Statement) : Draft :=
  { d with toCatalog := d.toCatalog.insert s }

end Draft

/-- Loading: it changes the draft, also where it fails. -/
abbrev Loading := ExceptT Failure (StateM Draft)

namespace Loading

/-- What can be read from the draft. -/
def read {α : Type} (f : Draft → Except Failure α) : Loading α := fun d => (f d, d)

/-- Registers a statement, unless it is for a dialect that is not active. -/
def add (s : Statement) : Loading (Option Statement) := do
  if ← read (·.admits s.id s.dialect) then
    modify (·.insert s)
    return some s
  else return none

end Loading

end SqlTemplate
