import SqlTemplate.Template.Affixes

/-!
# Template nodes

A compiled template is a tree of nodes: text, text with substitutions, sequences, guards, choices,
loops, trimmed content and bindings.
-/

namespace SqlTemplate

/-- The attributes of a loop. -/
structure Loop where
  collection : String
  item : Option String := none
  index : Option String := none
  opening : Option String := none
  closing : Option String := none
  separator : Option String := none
  /-- Whether a null collection counts as an empty one. -/
  nullable : Bool := false
  deriving DecidableEq, Repr

/-- A node of a compiled template. -/
inductive Template where
  /-- Text that is written as it stands. -/
  | fixed (text : String)
  /-- Text with substitutions. -/
  | text (text : String)
  | sequence (parts : List Template)
  | guarded (test : String) (body : Template)
  /-- The first branch whose test holds, else the body without a test. -/
  | choice (branches : List (String × Template)) (fallback : Option Template)
  | loop (loop : Loop) (body : Template)
  | trimmed (affixes : Affixes) (body : Template)
  | bind (name expression : String)
  deriving Repr

instance : Inhabited Template := ⟨.sequence []⟩

end SqlTemplate
