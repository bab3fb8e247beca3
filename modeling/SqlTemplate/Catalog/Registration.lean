import SqlTemplate.Catalog.Inclusion

/-!
# Registration of statements

A statement element becomes a statement: its inclusions are expanded, its key statement and its
body are compiled, its metadata is read, and only then is anything registered. A statement for a
dialect that is not active is passed over before anything else of it is looked at.
-/

namespace SqlTemplate

open Text

namespace Definition

/-- The definition that a statement element gives to a source: the attributes of the element, with
the defaults of its command. -/
def ofElement (id : String) (command : Command) (e : Element) (source : Source) :
    Except Failure Definition := do
  let reads := command == .select
  let fetchSize ← e.count? "fetchSize"
  let timeout ← e.count? "timeout"
  let preparation ← Preparation.ofAttribute e.name (e.attribute? "statementType")
  let flushCache ← e.flag "flushCache" (!reads)
  let useCache ← e.flag "useCache" reads
  let resultOrdered ← e.flag "resultOrdered" false
  return {
    id, command, source, preparation, fetchSize, timeout, flushCache, useCache, resultOrdered
    dialect := e.attribute? "databaseId"
    parameterType := e.attribute? "parameterType"
    resultType := e.attribute? "resultType"
    resultMap := e.attribute? "resultMap"
    resultSets := e.attribute? "resultSets"
    keyProperties := commaParts ((e.attribute? "keyProperty").getD "")
    keyColumns := commaParts ((e.attribute? "keyColumn").getD "") }

end Definition

namespace Registration

/-- Whether an element declares the key of a statement. -/
def isKey (m : Markup) : Bool :=
  match m with
  | .element name _ _ => name = "selectKey"
  | .text _ => false

/-- The key element that applies: the one for the active dialect, else the first for none. -/
def keyElement? (active : Option String) (content : List Markup) : Option Element :=
  let keys := (content.filter isKey).filterMap Markup.element?
  let forActive := match active with
    | some d => keys.find? fun (e : Element) => e.attribute? "databaseId" = some d
    | none => none
  forActive.or (keys.find? fun (e : Element) => e.attribute? "databaseId" = none)

/-- Whether a key is obtained before its statement, as the `order` attribute says. -/
def isBefore (e : Element) : Except Failure Bool :=
  match e.attribute? "order" with
  | none => .ok false
  | some order =>
    if sameIgnoringCase order "BEFORE" then .ok true
    else if sameIgnoringCase order "AFTER" then .ok false
    else .error (.invalidAttribute "selectKey" "order" order)

/-- The key statement of a statement, and whether it comes before it. -/
def keyStatement? (c : Catalog) (id : String) (dialect : Option String) (content : List Markup)
    (hint : Option String) : Except Failure (Option (Definition × Bool)) :=
  match keyElement? c.dialect content with
  | none => .ok none
  | some e => do
    let before ← isBefore e
    let source ← Source.ofContent c.engine e.children hint
    let preparation ← Preparation.ofAttribute "selectKey" (e.attribute? "statementType")
    return some ({
      id := id ++ keySuffix
      command := .select
      source, preparation, dialect
      parameterType := hint
      resultType := e.attribute? "resultType"
      keyProperties := commaParts ((e.attribute? "keyProperty").getD "")
      keyColumns := commaParts ((e.attribute? "keyColumn").getD "")
      flushCache := false
      useCache := false }, before)

/-- The generator of a statement without a key element. -/
def plainGenerator (c : Catalog) (command : Command) (e : Element) :
    Except Failure KeyGenerator := do
  if command != .insert then return .absent
  if ← e.flag "useGeneratedKeys" c.generatedKeys then return .generated else return .absent

/-- The generator of a statement, whose key statement is given where it has one. -/
def generator (c : Catalog) (command : Command) (e : Element) :
    Option (Definition × Bool) → Except Failure KeyGenerator
  | some (key, before) => .ok (.selected key before)
  | none => plainGenerator c command e

/-- The command and the qualified id of a statement element of a namespace. -/
def heading (space : String) (e : Element) : Except Failure (Command × String) := do
  let some command := Command.ofTag? e.name | throw (.unknownElement e.name)
  let id ← qualifyId space (← e.required "id") e.name
  return (command, id)

/-- The statement that an element under its heading comes to. Its inclusions are from the fragments
of the draft. -/
def prepare (d : Draft) (space : String) (e : Element) (command : Command) (id : String) :
    Except Failure Statement := do
  let content ← Inclusion.apply d space e.children
  let hint := e.attribute? "parameterType"
  let key ← keyStatement? d.toCatalog id (e.attribute? "databaseId") content hint
  let source ← Source.ofContent d.engine (content.filter (!isKey ·)) hint
  let definition ← Definition.ofElement id command e source
  let keys ← generator d.toCatalog command e key
  return { definition with keys }

/-- Registers a statement, and before it the key statement of its generator. -/
def publish (s : Statement) : Loading (Option Statement) :=
  match s.keys with
  | .selected key _ => do
    if ← Loading.read (·.admits key.id key.dialect) then
      match ← Loading.add { key with } with
      | some _ => Loading.add s
      | none => Loading.add { s with keys := .absent }
    else return none
  | _ => Loading.add s

/-- Compiles and registers a statement element of a namespace. The statement is missing in the
result where it is for a dialect that is not active. -/
def register (space : String) (e : Element) : Loading (Option Statement) := do
  let (command, id) ← Loading.read fun _ => heading space e
  if ← Loading.read (·.admits id (e.attribute? "databaseId")) then
    let s ← Loading.read (prepare · space e command id)
    publish s
  else return none

end Registration

end SqlTemplate
