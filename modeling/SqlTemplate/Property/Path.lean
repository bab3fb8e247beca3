import SqlTemplate.Text.Parts

/-!
# Property paths

A path such as `orders[0].lines['sku']` is a list of steps, each a name or a key in brackets. The
text is cut at its points, and each part has a name, or a name and keys. Blanks around a part and
around a key are dropped, as are quotes around a key.
-/

namespace SqlTemplate

open Text

/-- One step of a property path. -/
inductive Step where
  | name (key : String)
  | index (key : String)
  deriving DecidableEq, Repr

/-- The key that a step looks up. -/
def Step.key : Step → String
  | .name key | .index key => key

namespace PropertyPath

/-- The quotes that may stand around a key. -/
def isQuote (c : Char) : Bool :=
  c == '\'' || c == '"'

/-- A key without the quotes at its ends. -/
def unquoted (s : List Char) : List Char :=
  ((s.dropWhile isQuote).reverse.dropWhile isQuote).reverse

/-- The keys in brackets at the front of a text, up to the first that is not closed. -/
def brackets (s : List Char) : List Step :=
  match s with
  | '[' :: inner =>
    match h : cutAtChar? ']' inner with
    | none => []
    | some (key, rest) =>
      have : rest.length < inner.length + 1 :=
        Nat.lt_succ_of_le (Nat.le_of_add_right_le (length_of_cutAt? h))
      .index (.ofList (unquoted (trim key))) :: brackets rest
  | _ => []
termination_by s.length

/-- The steps of one part between points. -/
def partSteps (part : List Char) : List Step :=
  let part := trim part
  let head := part.takeWhile (· != '[')
  (if head.isEmpty then [] else [.name (.ofList head)]) ++ brackets (part.dropWhile (· != '['))

/-- The steps of a path. -/
def steps (path : String) : List Step :=
  (path.toList.splitOn '.').flatMap partSteps

end PropertyPath

end SqlTemplate
