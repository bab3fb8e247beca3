import SqlTemplate.Template.Context
import SqlTemplate.Template.Node

/-!
# Iteration

A loop evaluates its body once for each entry of a collection. Each iteration takes a number and
binds the loop's names, and with each of them a name of that iteration alone; the placeholders
that the iteration wrote are then pointed at the latter, so that they keep their values when the
loop goes on. Afterwards the loop's names have the bindings that they had before it.
-/

namespace SqlTemplate

open Text

/-- The name of a loop variable in one iteration. -/
def iterationName (name : String) (n : Nat) : String :=
  "__frch_" ++ name ++ "_" ++ toString n

/-- Whether a placeholder's property ends where a text begins. -/
def endsRoot : List Char → Bool
  | [] => true
  | c :: _ => c == '.' || c == ',' || c == ':' || c == '[' || isBlank c

/-- The body of a placeholder whose property begins with `name`, pointed at one iteration. -/
def renamed? (name : String) (n : Nat) (body : String) : Option String :=
  match after? name.toList (trimStart body.toList) with
  | some rest =>
    if endsRoot rest then some (iterationName name n ++ .ofList rest) else none
  | none => none

namespace Loop

/-- The names that a loop binds: its index, then its item. -/
def names (loop : Loop) : List String :=
  loop.index.toList ++ loop.item.toList

/-- The body of a placeholder as an iteration leaves it. -/
def renameBody (loop : Loop) (n : Nat) (body : String) : String :=
  ((loop.item.bind (renamed? · n body)).or (loop.index.bind (renamed? · n body))).getD body

/-- What an iteration wrote, with its placeholders pointed at it. -/
def rename (loop : Loop) (n : Nat) (text : String) : String :=
  Marker.placeholder.replace (fun body => Marker.placeholder.write (loop.renameBody n body)) text

/-- The state with the names of a loop bound for one iteration. -/
def bindEntry (loop : Loop) (n : Nat) (entry : Value × Value) (c : Context) : Context :=
  let bindBoth (name : Option String) (value : Value) (c : Context) : Context :=
    match name with
    | some name => (c.bind (iterationName name n) value).bind name value
    | none => c
  bindBoth loop.item entry.2 (bindBoth loop.index entry.1 c)

/-- One iteration, with the text that it wrote. -/
def iterate (loop : Loop) (body : Evaluation Bool) (entry : Value × Value) :
    Evaluation String := do
  let n ← Evaluation.next
  modify (loop.bindEntry n entry)
  let (_, text) ← Evaluation.capture body
  return trimmed (loop.rename n text)

/-- The iterations for a list of entries, with the texts that are not empty. -/
def iterateAll (loop : Loop) (body : Evaluation Bool) :
    List (Value × Value) → Evaluation (List String)
  | [] => pure []
  | entry :: rest => do
    let text ← loop.iterate body entry
    let texts ← loop.iterateAll body rest
    return if text.isEmpty then texts else text :: texts

/-- The entries of a loop's collection. -/
def entries (loop : Loop) (surroundings : Surroundings) (c : Context) :
    Except Failure (List (Value × Value)) :=
  match c.entries surroundings loop.collection with
  | .error (.expression source .nullCollection) =>
    if loop.nullable then .ok [] else .error (.expression source .nullCollection)
  | result => result

/-- The texts of a loop's iterations put together. -/
def assemble (loop : Loop) (texts : List String) : String :=
  loop.opening.getD "" ++ (loop.separator.getD "").intercalate texts ++ loop.closing.getD ""

/-- The state with the names of a loop bound as they are in an earlier state. -/
def restore (loop : Loop) (earlier c : Context) : Context :=
  loop.names.foldl (fun c name => c.restore name (earlier.bindings.find? name)) c

/-- A whole loop. It does nothing for an empty collection. -/
def run (loop : Loop) (surroundings : Surroundings) (body : Evaluation Bool) :
    Evaluation Bool := do
  let entries ← Evaluation.read (loop.entries surroundings)
  if entries.isEmpty then return false
  let earlier ← get
  let texts ← loop.iterateAll body entries
  modify (loop.restore earlier)
  Evaluation.write (loop.assemble texts)
  return true

end Loop

end SqlTemplate
