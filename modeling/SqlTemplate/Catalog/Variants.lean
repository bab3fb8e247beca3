import SqlTemplate.Entries

/-!
# Variants by dialect

What is registered under one id: a variant for each of some dialects, and a fallback for all
others. While a dialect is active, variants for other dialects are passed over.
-/

namespace SqlTemplate

/-- Whether an entry may join the variants under its id. -/
inductive Admission where
  | accept
  /-- The entry is for a dialect that is not active. -/
  | skip
  | duplicate
  deriving DecidableEq, Repr

/-- The variants under one id. -/
structure Variants (α : Type) where
  byDialect : Entries α := []
  fallback : Option α := none

namespace Variants

variable {α : Type}

/-- The variant declared for exactly a dialect, or for none. -/
def declared? (v : Variants α) : (dialect : Option String) → Option α
  | some d => v.byDialect.find? d
  | none => v.fallback

/-- Whether an entry for a dialect may join while another, or none, is active. -/
def admission (v : Variants α) (dialect active : Option String) : Admission :=
  match dialect, active with
  | some d, some a =>
    if a ≠ d then .skip else if (v.declared? (some d)).isSome then .duplicate else .accept
  | dialect, _ => if (v.declared? dialect).isSome then .duplicate else .accept

/-- The variants with an entry for a dialect, or a fallback. -/
def insert (v : Variants α) (dialect : Option String) (a : α) : Variants α :=
  match dialect with
  | some d => { v with byDialect := v.byDialect.insert d a }
  | none => { v with fallback := some a }

/-- The variant for a dialect, else the fallback. -/
def resolve? (v : Variants α) (dialect : Option String) : Option α :=
  (dialect.bind v.byDialect.find?).or v.fallback

/-- Every entry: the variants in the order of their dialects, then the fallback. -/
def toList (v : Variants α) : List α :=
  v.byDialect.values ++ v.fallback.toList

theorem declared?_insert (v : Variants α) (dialect dialect' : Option String) (a : α) :
    (v.insert dialect a).declared? dialect' =
      if dialect = dialect' then some a else v.declared? dialect' := by
  cases dialect <;> cases dialect' <;> simp [insert, declared?, Entries.find?_insert]

end Variants

end SqlTemplate
