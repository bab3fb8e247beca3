import SqlTemplate.Binding.BoundSql
import SqlTemplate.Markup.Reader
import SqlTemplate.Template.Compilation
import SqlTemplate.Template.Rendering

/-!
# Sources of SQL

A compiled template as a source of bound SQL. A static template is rendered once, when it is
compiled; any other is rendered for each parameter. The engine says how attributes are read, what
language expressions are in and how SQL is written.
-/

namespace SqlTemplate

open Text

/-- How SQL is written. -/
structure Options where
  placeholder : PlaceholderStyle := .question
  /-- Whether blank runs become single spaces. -/
  shrink : Bool := false
  /-- Whether a substitution that has no value is a failure. -/
  strict : Bool := false
  deriving DecidableEq, Repr

/-- What templates are compiled and rendered with. -/
structure Engine extends Options where
  access : Access := .lenient
  evaluator : Evaluator := .standard

namespace Engine

/-- The surroundings of an evaluation for a parameter. -/
def surroundings (engine : Engine) (parameter : Value) : Surroundings where
  parameter
  access := engine.access
  evaluator := engine.evaluator
  strict := engine.strict

/-- What a finished evaluation wrote, and its bindings. -/
def finish (engine : Engine) (c : Context) : String × Entries Value :=
  let sql := trimmed c.sql
  (if engine.shrink then mapChars collapse sql else sql, c.bindings)

/-- The text that a template writes for a parameter and a dialect, its placeholder markers left in
place, and the bindings that it made. -/
def render (engine : Engine) (template : Template) (parameter : Value) (dialect : Option String) :
    Except Failure (String × Entries Value) :=
  match (template.render (engine.surroundings parameter)).run (.initial dialect) with
  | (.ok _, c) => .ok (engine.finish c)
  | (.error failure, _) => .error failure

end Engine

/-- A compiled template. -/
inductive Source where
  /-- The text of a static template, its SQL and its mappings. -/
  | fixed (text sql : String) (mappings : List Mapping)
  /-- A template to be rendered for each parameter, and the hint for its mappings. -/
  | live (template : Template) (hint : Option String)

namespace Source

/-- The source that a template is: rendered now, if it is static. -/
def ofTemplate (engine : Engine) (template : Template) (dynamic : Bool) (hint : Option String) :
    Except Failure Source :=
  if dynamic then .ok (.live template hint)
  else do
    let (text, _) ← engine.render template .null none
    let (sql, mappings) ← bindPlaceholders engine.placeholder hint text
    return .fixed text sql mappings

/-- The source that mixed content is. -/
def ofContent (engine : Engine) (content : List Markup) (hint : Option String) :
    Except Failure Source := do
  let template ← Template.ofContent content
  ofTemplate engine template (Template.isDynamic content) hint

/-- The source that the text of a template is. -/
def parse (engine : Engine) (script : String) (hint : Option String) : Except Failure Source := do
  let content ← Markup.parseContent script
  ofContent engine content hint

/-- Whether a source is rendered for each parameter. -/
def isDynamic : Source → Bool
  | .fixed .. => false
  | .live .. => true

/-- The text of a source, its placeholder markers left in place, and the bindings that it made. -/
def render (source : Source) (engine : Engine) (parameter : Value) (dialect : Option String) :
    Except Failure (String × Entries Value) :=
  match source with
  | .fixed text _ _ => .ok (text, [])
  | .live template _ => engine.render template parameter dialect

/-- The bound SQL of a source. -/
def bind (source : Source) (engine : Engine) (parameter : Value) (dialect : Option String) :
    Except Failure BoundSql :=
  match source with
  | .fixed _ sql mappings => .ok { sql, mappings, parameter }
  | .live template hint => do
    let (text, additional) ← engine.render template parameter dialect
    let (sql, mappings) ← bindPlaceholders engine.placeholder hint text
    return { sql, mappings, parameter, additional }

end Source

end SqlTemplate
