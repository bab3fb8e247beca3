import SqlTemplate.Expr.Evaluation

/-!
# Expressions read once

An evaluator that keeps the expressions it has read, under their source texts. Texts that cannot
be read are not kept, and what is kept does not show in any value.
-/

namespace SqlTemplate

/-- The expressions read so far, under their source texts. -/
structure ExprCache where
  read : Entries Expr := []

namespace ExprCache

/-- The number of texts that have been read. -/
def size (cache : ExprCache) : Nat :=
  cache.read.length

/-- The expression that a source text writes, and the cache that keeps it. -/
def parse (cache : ExprCache) (source : String) : Except ExprFault Expr × ExprCache :=
  match cache.read.find? source with
  | some e => (.ok e, cache)
  | none =>
    match Expr.parse source with
    | .ok e => (.ok e, ⟨cache.read.insert source e⟩)
    | .error fault => (.error fault, cache)

/-- The value of a source text in a scope. -/
def value (cache : ExprCache) (scope : Scope) (source : String) :
    Except ExprFault Value × ExprCache :=
  let (e, cache) := cache.parse source
  (e.bind (Expr.evaluate scope), cache)

/-- Whether a source text counts as true in a scope. -/
def boolean (cache : ExprCache) (scope : Scope) (source : String) :
    Except ExprFault Bool × ExprCache :=
  let (v, cache) := cache.value scope source
  (v.map Value.isTruthy, cache)

/-- The keys and items of the collection that a source text stands for. -/
def entries (cache : ExprCache) (scope : Scope) (source : String) :
    Except ExprFault (List (Value × Value)) × ExprCache :=
  let (v, cache) := cache.value scope source
  (v.bind Value.entries, cache)

end ExprCache

end SqlTemplate
