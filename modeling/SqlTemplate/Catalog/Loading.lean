import SqlTemplate.Catalog.Registration

/-!
# Loading of documents

A mapper document declares a namespace, fragments and statements. All fragments of a document are
registered before its statements, and a statement that includes a fragment not yet known waits
until the catalog is complete. A document that fails keeps what was registered before its failure.
-/

namespace SqlTemplate

open Text

namespace Loading

/-- A step on the draft that changes nothing where it fails. -/
def step {α : Type} (f : Draft → Except Failure (α × Draft)) : Loading α := fun d =>
  match f d with
  | .ok (a, d') => (.ok a, d')
  | .error failure => (.error failure, d)

/-- Registers a fragment element of a namespace. -/
def fragment (space : String) (e : Element) : Loading Unit :=
  step fun d => do
    let id ← qualifyId space (← e.required "id") "sql"
    return ((), ← d.addFragment id (e.attribute? "databaseId") e)

/-- Registers the fragment elements among some elements. -/
def fragments (space : String) : List Element → Loading Unit
  | [] => pure ()
  | e :: rest => do
    if e.name = "sql" then fragment space e
    fragments space rest

/-- Registers a statement element, or lets it wait for a fragment. The result counts it where it
was registered. -/
def statement (space : String) (e : Element) : Loading Nat := fun d =>
  match Registration.register space e d with
  | (.ok (some _), d) => (.ok 1, d)
  | (.ok none, d) => (.ok 0, d)
  | (.error (.fragmentNotFound _), d) =>
    (.ok 0, { d with pending := d.pending ++ [{ space, element := e }] })
  | (.error failure, d) => (.error failure, d)

/-- Registers the statement elements among some elements and counts them. -/
def statements (space : String) : List Element → Loading Nat
  | [] => pure 0
  | e :: rest => do
    let first ← if (Command.ofTag? e.name).isSome then statement space e else pure 0
    let others ← statements space rest
    return first + others

/-- The namespace of a document. -/
def space (resource : String) (root : Element) : Except Failure String := do
  if root.name ≠ "mapper" then throw (.config (.notAMapper resource root.name))
  let space ← root.required "namespace"
  if (trim space.toList).isEmpty then
    throw (.invalidAttribute "mapper" "namespace" space)
  return space

/-- The namespace of the document of a source, and its elements. -/
def content (source resource : String) : Except Failure (String × List Element) := do
  let root ← Markup.parseDocument source
  return (← space resource root, root.elements)

/-- Loads a document and counts the statements registered now. Failures name the resource. -/
def document (source resource : String) : Loading Nat := do
  let (space, elements) ← read fun _ => content source resource
  fragments space elements
  statements space elements

/-- Registers the statements that wait, in the order of their appearance. -/
def pending : List Declaration → Loading Unit
  | [] => pure ()
  | p :: rest => do
    let _ ← Registration.register p.space p.element
    pending rest

end Loading

namespace Draft

/-- Loads a document into a draft. -/
def load (d : Draft) (source resource : String) : Except Failure Nat × Draft :=
  Loading.document source resource d

/-- The complete catalog, once the statements that waited are registered. -/
def build (d : Draft) : Except Failure Catalog :=
  match Loading.pending d.pending { d with pending := [] } with
  | (.ok (), d) => .ok d.toCatalog
  | (.error failure, _) => .error failure

end Draft

end SqlTemplate
