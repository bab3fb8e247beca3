import SqlTemplate.Json.Value

/-!
# Expressions

The language of guards, bindings and collections: literals, names, properties, keys, method
calls, negation and the binary operators.
-/

namespace SqlTemplate

/-- A binary operator. -/
inductive BinaryOp where
  | or | and | eq | ne | lt | le | gt | ge | add | sub | mul | div | rem
  deriving DecidableEq, Repr

/-- An expression. -/
inductive Expr where
  | literal (value : Value)
  | name (name : String)
  | property (target : Expr) (name : String)
  | index (target key : Expr)
  | call (target : Expr) (method : String) (arguments : List Expr)
  | not (operand : Expr)
  | negate (operand : Expr)
  | binary (op : BinaryOp) (left right : Expr)

instance : Inhabited Expr := ⟨.literal .null⟩

/-- The sign by which an operator is known. -/
def BinaryOp.sign : BinaryOp → String
  | .or => "or"
  | .and => "and"
  | .eq => "=="
  | .ne => "!="
  | .lt => "<"
  | .le => "<="
  | .gt => ">"
  | .ge => ">="
  | .add => "+"
  | .sub => "-"
  | .mul => "*"
  | .div => "/"
  | .rem => "%"

end SqlTemplate
