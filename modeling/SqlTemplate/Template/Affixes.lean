import SqlTemplate.Text.Blank
import SqlTemplate.Text.LetterCase
import SqlTemplate.Text.Parts

/-!
# Affixes

What a trimming element puts before and after its content, and which beginnings and ends of the
content give way to it. Overrides are compared without regard to the case of ASCII letters; blanks
in an override are part of it, but only the rest of it is removed.
-/

namespace SqlTemplate

open Text

/-- The affixes of a trimming element. Overrides are in upper case. -/
structure Affixes where
  lead : Option String := none
  tail : Option String := none
  leadOverrides : List String := []
  tailOverrides : List String := []
  deriving DecidableEq, Repr

namespace Affixes

/-- The overrides that a list with bars between them names. -/
def overrides (list : String) : List String :=
  ((list.toList.splitOn '|').filter (!·.isEmpty)).map fun s => .ofList (asciiUpper s)

/-- Affixes as the attributes of an element give them. -/
def ofAttributes (lead leadOverrides tail tailOverrides : Option String) : Affixes where
  lead := lead
  tail := tail
  leadOverrides := (leadOverrides.map overrides).getD []
  tailOverrides := (tailOverrides.map overrides).getD []

/-- The affixes of a `where` element: connectives at the beginning give way to `WHERE`. -/
def whereClause : Affixes where
  lead := some "WHERE"
  leadOverrides := ["AND ", "OR ", "AND\n", "OR\n", "AND\r", "OR\r", "AND\t", "OR\t"]

/-- The affixes of a `set` element: a comma at the end gives way. -/
def setClause : Affixes where
  lead := some "SET"
  tailOverrides := [","]

/-- The first override that a text begins with. -/
def leading? (overrides : List String) (s : List Char) : Option (List Char) :=
  (overrides.map String.toList).find? fun o => o.isPrefixOf (asciiUpper s)

/-- The first override that a text ends with. -/
def trailing? (overrides : List String) (s : List Char) : Option (List Char) :=
  (overrides.map String.toList).find? fun o => o.isSuffixOf (asciiUpper s)

/-- A text without the override it begins with and the blanks after it. -/
def dropLeading (overrides : List String) (s : List Char) : List Char :=
  match leading? overrides s with
  | some o => trimStart (s.drop (trimEnd o).length)
  | none => s

/-- A text without the override it ends with and the blanks before it. -/
def dropTrailing (overrides : List String) (s : List Char) : List Char :=
  match trailing? overrides s with
  | some o => trimEnd (s.take (s.length - (trimStart o).length))
  | none => s

/-- What is left of a body between its affixes. -/
def core (affixes : Affixes) (body : List Char) : List Char :=
  dropTrailing affixes.tailOverrides (dropLeading affixes.leadOverrides (trim body))

/-- A text with the affixes around it, each set off by a space. -/
def wrap (affixes : Affixes) (s : List Char) : List Char :=
  (affixes.lead.map fun a => a.toList ++ [' ']).getD [] ++ s ++
    (affixes.tail.map fun a => ' ' :: a.toList).getD []

/-- A body between its affixes, or nothing where nothing is left of it. -/
def enclose? (affixes : Affixes) (body : String) : Option String :=
  let core := affixes.core body.toList
  if core.isEmpty then none else some (.ofList (affixes.wrap core))

end Affixes

end SqlTemplate
