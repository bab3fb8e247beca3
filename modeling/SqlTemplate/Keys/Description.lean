import SqlTemplate.Statement.Basic
import SqlTemplate.Text.Literal

/-!
# Descriptions of key generators

A key generator in full, for diagnosis: its kind, the id of its key statement as a literal, and
whether that statement runs first.
-/

namespace SqlTemplate

/-- The description of a key generator. -/
def KeyGenerator.description : KeyGenerator → String
  | .absent => "None"
  | .generated => "Generated"
  | .selected key before =>
    "SelectKey \x7b statement: " ++ Text.literal key.id ++ ", execute_before: " ++
      toString before ++ " \x7d"

end SqlTemplate
