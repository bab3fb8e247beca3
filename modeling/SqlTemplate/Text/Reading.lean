/-!
# Readings

What a reader took from the front of a text: a value, and the text that is left, which is shorter
than the text it was given. The proof that it is shorter lets readers call each other on what is
left without a bound on their depth. The white space that may stand between the parts of a format
is skipped in one way by all readers.
-/

namespace SqlTemplate.Text

/-- A value read from the front of `s`, and the shorter text after it. -/
structure Reading (α : Type) (s : List Char) where
  value : α
  rest : List Char
  shorter : rest.length < s.length

namespace Reading

variable {α β : Type} {s t : List Char}

/-- The same reading with its value changed. -/
def map (f : α → β) (r : Reading α s) : Reading β s :=
  ⟨f r.value, r.rest, r.shorter⟩

/-- A reading of a text as one of any text at least as long. -/
def widen (r : Reading α s) (h : s.length ≤ t.length) : Reading α t :=
  ⟨r.value, r.rest, Nat.lt_of_lt_of_le r.shorter h⟩

/-- A given character at the front of a text. -/
def char? (c : Char) : (s : List Char) → Option (Reading Unit s)
  | [] => none
  | d :: rest => if d = c then some ⟨(), rest, Nat.lt_succ_self _⟩ else none

@[ext] protected theorem ext {a b : Reading α s} (hv : a.value = b.value) (hr : a.rest = b.rest) :
    a = b := by
  cases a; cases b; simp_all

end Reading

theorem length_dropWhile_le (p : Char → Bool) (s : List Char) :
    (s.dropWhile p).length ≤ s.length :=
  (List.dropWhile_suffix p).length_le

theorem length_dropWhile_lt_cons (p : Char → Bool) (c : Char) (s : List Char) :
    (s.dropWhile p).length < (c :: s).length :=
  Nat.lt_succ_of_le (length_dropWhile_le p s)

/-! ## White space between parts -/

/-- The white space between the parts of a tag, of an expression or of JSON. -/
def isGap (c : Char) : Bool :=
  c == ' ' || c == '\t' || c == '\r' || c == '\n'

/-- The text without its leading white space. -/
def skipGap (s : List Char) : List Char :=
  s.dropWhile isGap

theorem length_skipGap_le (s : List Char) : (skipGap s).length ≤ s.length :=
  length_dropWhile_le isGap s

end SqlTemplate.Text
