import SqlTemplate.Catalog.Basic
import SqlTemplate.Json.Text

/-!
# Reports

What the program prints: a rendered statement as text or as JSON, the listing of a catalog, and
the results of a check.
-/

namespace SqlTemplate.Report

/-- Lines of text, each with its end. -/
def lines (parts : List String) : String :=
  .join (parts.map (· ++ "\n"))

/-- A text filled up with blanks to a number of characters. -/
def padded (width : Nat) (s : String) : String :=
  .ofList (s.toList.rightpad width ' ')

/-! ## Rendered statements -/

/-- The line for the `n`th binding. -/
def binding (n : Nat) (m : Mapping) (value : Value) : String :=
  let type := match m.jdbcType with
    | some type => " (" ++ type ++ ")"
    | none => ""
  let number := String.ofList ((toString n).toList.leftpad 3 ' ')
  "  " ++ number ++ "  " ++ m.property ++ type ++ " = " ++ Json.compact value

/-- The lines for bindings, counted on from `n`. -/
def bindingsFrom (n : Nat) : List (Mapping × Value) → List String
  | [] => []
  | (m, value) :: rest => binding (n + 1) m value :: bindingsFrom (n + 1) rest

/-- A rendered statement as text. -/
def renderedText (s : Statement) (bound : BoundSql) (values : List Value) : String :=
  let dialect := match s.dialect with
    | some dialect => " [" ++ dialect ++ "]"
    | none => ""
  let bindings := match bindingsFrom 0 (bound.mappings.zip values) with
    | [] => []
    | bindings => ["", "Bindings:"] ++ bindings
  lines (["Statement: " ++ s.id ++ " " ++ s.command.name ++ dialect, "", "Generated SQL:",
    "  " ++ bound.sql] ++ bindings)

/-- A rendered statement as JSON. -/
def renderedJson (s : Statement) (bound : BoundSql) (values : List Value) : String :=
  let parameters := (bound.mappings.zip values).map fun (m, value) =>
    Value.ofFields [("mapping", m.toValue), ("value", value)]
  lines [Json.pretty "" (.ofFields [
    ("statement", .string s.id),
    ("command", .string s.command.name),
    ("databaseId", .ofString? s.dialect),
    ("sql", .string bound.sql),
    ("parameters", .array parameters)])]

/-! ## Listings -/

/-- One row of a listing. -/
def row (id command dialect keys kind : String) : String :=
  padded 40 id ++ " " ++ padded 8 command ++ " " ++ padded 10 dialect ++ " " ++ padded 18 keys ++
    " " ++ kind

/-- The row of a statement. -/
def statementRow (s : Statement) : String :=
  row s.id s.command.name (s.dialect.getD "-") s.keys.name
    (if s.source.isDynamic then "dynamic" else "static")

/-- The listing of statements. -/
def listing (statements : List Statement) : String :=
  if statements.isEmpty then lines ["(no statements)"]
  else
    lines ([row "Statement" "Command" "Dialect" "Keys" "Kind",
      .ofList (List.replicate 90 '─')] ++ statements.map statementRow ++
      ["", toString statements.length ++ " statement(s)"])

/-! ## Checks -/

/-- The line for a document that was checked. -/
def checked (path : String) : Except Failure Nat → String
  | .ok count => "✓ " ++ path ++ " (" ++ toString count ++ " statements)"
  | .error failure => "✗ " ++ path ++ " " ++ failure.message

/-- The last lines of a check. -/
def completed : Except Failure Catalog → List String
  | .ok catalog => ["", toString catalog.listing.length ++ " statement(s) registered"]
  | .error failure => ["✗ " ++ failure.message]

end SqlTemplate.Report
