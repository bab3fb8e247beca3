import SqlTemplate.Expr.Evaluation
import SqlTemplate.Marker
import SqlTemplate.Text.Blank

/-!
# Contexts

What a template is evaluated in, and what its evaluation changes. The surroundings are fixed: the
parameter, the access to its attributes, the language of expressions. The state is the SQL written
so far, the bindings made so far and a counter; it is kept when an evaluation fails.
-/

namespace SqlTemplate

open Text

/-- The name under which the parameter itself is found. -/
def parameterName : String := "_parameter"

/-- The name under which the dialect is bound. -/
def dialectName : String := "_databaseId"

/-- The surroundings of an evaluation. -/
structure Surroundings where
  parameter : Value
  access : Access := .lenient
  evaluator : Evaluator := .standard
  /-- Whether a substitution that has no value is a failure. -/
  strict : Bool := false

/-- The state of an evaluation. -/
structure Context where
  bindings : Entries Value := []
  sql : String := ""
  counter : Nat := 0

/-- An evaluation: it changes the state, and it may fail. -/
abbrev Evaluation := ExceptT Failure (StateM Context)

namespace Context

/-- The state at the beginning of an evaluation for a dialect. -/
def initial (dialect : Option String) : Context where
  bindings := [(dialectName, .ofString? dialect)]

/-- The last character of a text is there and is no blank. -/
def endsWord (s : List Char) : Bool :=
  match s.getLast? with
  | some c => !isBlank c
  | none => false

/-- A fragment after a text, with a space between them where two words would run together. -/
def join (s fragment : List Char) : List Char :=
  if fragment.isEmpty then s
  else if endsWord s && !startsBlank fragment then s ++ ' ' :: fragment
  else s ++ fragment

/-- The state with a fragment written. -/
def write (c : Context) (fragment : String) : Context :=
  { c with sql := .ofList (join c.sql.toList fragment.toList) }

/-- The state with a name bound. -/
def bind (c : Context) (name : String) (value : Value) : Context :=
  { c with bindings := c.bindings.insert name value }

/-- The state with a name bound as it is in an earlier state. -/
def restore (c : Context) (name : String) (earlier : Option Value) : Context :=
  { c with bindings := c.bindings.set name earlier }

/-- The value of a name: its binding, the parameter itself under its own name, else an attribute
of the parameter. Every name is an attribute of a null parameter, with the value null. -/
def lookup? (c : Context) (surroundings : Surroundings) (name : String) : Option Value :=
  match c.bindings.find? name with
  | some value => some value
  | none =>
    if name = parameterName then some surroundings.parameter
    else if surroundings.parameter.isNull then some .null
    else surroundings.access.get? surroundings.parameter name

/-- The scope of expressions in a state. -/
def scope (c : Context) (surroundings : Surroundings) : Scope where
  resolve? := c.lookup? surroundings
  access := surroundings.access

/-- The value of an expression. -/
def value (c : Context) (surroundings : Surroundings) (source : String) : Except Failure Value :=
  (surroundings.evaluator.value (c.scope surroundings) source).mapError (.expression source)

/-- Whether an expression counts as true. -/
def boolean (c : Context) (surroundings : Surroundings) (source : String) :
    Except Failure Bool :=
  (surroundings.evaluator.boolean (c.scope surroundings) source).mapError (.expression source)

/-- The keys and items of the collection that an expression stands for. -/
def entries (c : Context) (surroundings : Surroundings) (source : String) :
    Except Failure (List (Value × Value)) :=
  (surroundings.evaluator.entries (c.scope surroundings) source).mapError (.expression source)

/-- The text in the place of a substitution marker. Null leaves nothing, and so does an
expression without a value, unless that is a failure. -/
def substitution (c : Context) (surroundings : Surroundings) (body : String) :
    Except Failure String :=
  let source := trimmed body
  let unresolved : Except Failure String :=
    if surroundings.strict then .error (.unresolvedSubstitution source) else .ok ""
  match surroundings.evaluator.value (c.scope surroundings) source with
  | .ok .null => .ok ""
  | .ok value => .ok value.text
  | .error (.unresolved _) | .error (.nullTarget _) => unresolved
  | .error fault => .error (.expression source fault)

/-- A text with its substitution markers replaced. -/
def substitute (c : Context) (surroundings : Surroundings) (text : String) :
    Except Failure String :=
  Marker.substitution.replaceM (c.substitution surroundings) text

end Context

namespace Evaluation

/-- Something worked out from the state, which may fail and changes nothing. -/
def read {α : Type} (f : Context → Except Failure α) : Evaluation α := do
  let c ← get
  liftExcept (f c)
where
  liftExcept (r : Except Failure α) : Evaluation α :=
    match r with
    | .ok a => pure a
    | .error failure => throw failure

/-- Writes a fragment. -/
def write (fragment : String) : Evaluation Unit :=
  modify (·.write fragment)

/-- The next value of the counter. -/
def next : Evaluation Nat :=
  modifyGet fun c => (c.counter, { c with counter := c.counter + 1 })

/-- An evaluation into an empty text, with what it wrote. The text written before is there again
afterwards, also where the evaluation fails. -/
def capture {α : Type} (body : Evaluation α) : Evaluation (α × String) := fun c =>
  let (result, inner) := body { c with sql := "" }
  (result.map fun a => (a, inner.sql), { inner with sql := c.sql })

end Evaluation

end SqlTemplate
