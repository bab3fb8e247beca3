import SqlTemplate.Keys.Storing

/-!
# Key generation

When keys are asked for, and of what. Running SQL is the business of an executor; a generator
makes the request, before or after the statement, and the answer is stored in the parameter.
-/

namespace SqlTemplate

/-- What an executor is asked. -/
inductive KeyRequest where
  /-- To run a key statement. -/
  | query (key : Definition) (bound : BoundSql)
  /-- For the keys that a statement just generated. -/
  | generated (statement : Definition)

/-- Answers requests with rows. -/
abbrev KeyExecutor := KeyRequest → Except Failure (List Row)

namespace KeyGenerator

/-- The request that a generator makes before a statement, or after it. A key statement without
key properties is not run. -/
def request? (g : KeyGenerator) (engine : Engine) (statement : Definition) (before : Bool)
    (parameter : Value) : Except Failure (Option KeyRequest) :=
  match g with
  | .absent => .ok none
  | .generated => .ok (if before then none else some (.generated statement))
  | .selected key runsBefore =>
    if runsBefore = before ∧ key.keyProperties ≠ [] then
      (key.bind engine parameter key.dialect).map fun bound => some (.query key bound)
    else .ok none

/-- Stores the answer to a request. -/
def store (access : Access) : KeyRequest → List Row → Storing Unit
  | .query key _, rows => Storing.selected access key rows
  | .generated statement, rows => Storing.generated access statement rows

/-- What became of a generator's turn: its request, its result and the parameter afterwards. -/
structure Turn where
  asked : Option KeyRequest
  result : Except Failure Unit
  parameter : Value

/-- A generator's turn before a statement, or after it. -/
def take (g : KeyGenerator) (executor : KeyExecutor) (engine : Engine) (statement : Definition)
    (before : Bool) (parameter : Value) : Turn :=
  match g.request? engine statement before parameter with
  | .error failure => ⟨none, .error failure, parameter⟩
  | .ok none => ⟨none, .ok (), parameter⟩
  | .ok (some request) =>
    match executor request with
    | .error failure => ⟨some request, .error failure, parameter⟩
    | .ok rows =>
      let (result, parameter) := store engine.access request rows parameter
      ⟨some request, result, parameter⟩

end KeyGenerator

end SqlTemplate
