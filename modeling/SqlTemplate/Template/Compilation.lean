import SqlTemplate.Marker
import SqlTemplate.Markup.Tree
import SqlTemplate.Template.Node

/-!
# Compiling templates

Mixed content becomes a template. Each element has to be a directive, with the attributes that
the directive needs; inside a choice only its branches count, and other directives there are
passed over. Content without elements and without substitutions is static: it is the same for
every parameter.
-/

namespace SqlTemplate

/-- What an element of a template asks for. -/
inductive Directive where
  | trim
  | whereClause
  | setClause
  | loop
  | guard
  | choice
  | branch
  | fallback
  | bind
  deriving DecidableEq, Repr

/-- The directive of a tag. -/
def Directive.ofTag? : String → Option Directive
  | "trim" => some .trim
  | "where" => some .whereClause
  | "set" => some .setClause
  | "foreach" => some .loop
  | "if" => some .guard
  | "choose" => some .choice
  | "when" => some .branch
  | "otherwise" => some .fallback
  | "bind" => some .bind
  | _ => none

namespace Template

/-- A text as a node: with substitutions where it holds a substitution marker. -/
def ofText (s : String) : Template :=
  if Marker.substitution.occursIn s then .text s else .fixed s

/-- The attributes of a loop element. -/
def loopOf (e : Element) : Except Failure Loop := do
  let collection ← e.required "collection"
  let nullable ← e.flag "nullable" false
  return {
    collection
    item := e.attribute? "item"
    index := e.attribute? "index"
    opening := e.attribute? "open"
    closing := e.attribute? "close"
    separator := e.attribute? "separator"
    nullable }

/-- The affixes of a trimming element. -/
def affixesOf (e : Element) : Affixes :=
  .ofAttributes (e.attribute? "prefix") (e.attribute? "prefixOverrides")
    (e.attribute? "suffix") (e.attribute? "suffixOverrides")

mutual

/-- The node of a piece of content. -/
def compile : Markup → Except Failure Template
  | .text s => .ok (ofText s)
  | .element name attributes children =>
    let e : Element := { name, attributes }
    match Directive.ofTag? name with
    | none => .error (.unknownElement name)
    | some .trim => do
      let parts ← compileAll children
      return .trimmed (affixesOf e) (.sequence parts)
    | some .whereClause => do
      let parts ← compileAll children
      return .trimmed .whereClause (.sequence parts)
    | some .setClause => do
      let parts ← compileAll children
      return .trimmed .setClause (.sequence parts)
    | some .loop => do
      let loop ← loopOf e
      let parts ← compileAll children
      return .loop loop (.sequence parts)
    | some .guard | some .branch => do
      let test ← e.required "test"
      let parts ← compileAll children
      return .guarded test (.sequence parts)
    | some .fallback => do
      let parts ← compileAll children
      return .sequence parts
    | some .choice => do
      let (branches, fallback) ← compileBranches false children
      return .choice branches fallback
    | some .bind => do
      let target ← e.required "name"
      let expression ← e.required "value"
      return .bind target expression

/-- The nodes of a list of content. -/
def compileAll : List Markup → Except Failure (List Template)
  | [] => .ok []
  | m :: rest => do
    let first ← compile m
    let others ← compileAll rest
    return first :: others

/-- The branches of a choice and its body without a test, of which there may be one. -/
def compileBranches (hasFallback : Bool) :
    List Markup → Except Failure (List (String × Template) × Option Template)
  | [] => .ok ([], none)
  | .text _ :: rest => compileBranches hasFallback rest
  | .element name attributes children :: rest =>
    match Directive.ofTag? name with
    | none => .error (.unknownElement name)
    | some .guard | some .branch => do
      let test ← Element.required { name, attributes } "test"
      let parts ← compileAll children
      let (branches, fallback) ← compileBranches hasFallback rest
      return ((test, .sequence parts) :: branches, fallback)
    | some .fallback =>
      if hasFallback then .error .severalDefaults
      else do
        let parts ← compileAll children
        let (branches, _) ← compileBranches true rest
        return (branches, some (.sequence parts))
    | some _ => compileBranches hasFallback rest

end

/-- Whether content has to be evaluated for each parameter anew. -/
def isDynamic (content : List Markup) : Bool :=
  content.any fun
    | .text s => Marker.substitution.occursIn s
    | .element .. => true

/-- The template of a list of content. -/
def ofContent (content : List Markup) : Except Failure Template :=
  (compileAll content).map .sequence

end Template

end SqlTemplate
