import SqlTemplate.Text.Numeral
import SqlTemplate.Text.Parts

/-!
# Character references

The five named references and the numeric ones, decimal or hexadecimal. Whatever else stands
between an ampersand and a semicolon is plain text.
-/

namespace SqlTemplate.Markup

open Text

/-- The character with a scalar value, if there is one. -/
def charOf? (n : Nat) : Option Char :=
  if n.isValidChar then some (.ofNat n) else none

/-- The character that a reference names, without its ampersand and semicolon. -/
def referenced? (name : List Char) : Option Char :=
  match String.ofList name with
  | "lt" => some '<'
  | "gt" => some '>'
  | "amp" => some '&'
  | "quot" => some '"'
  | "apos" => some '\''
  | _ =>
    let number := match name with
      | '#' :: 'x' :: digits | '#' :: 'X' :: digits =>
        (natural? 16 digits).filter (· < 0x100000000)
      | '#' :: digits => word32? digits
      | _ => none
    number.bind charOf?

/-- The character of the reference that a text begins with, and what follows its semicolon. -/
def reference? : List Char → Option (Char × List Char)
  | '&' :: s => do
    let (name, rest) ← cutAtChar? ';' s
    return (← referenced? name, rest)
  | _ => none

theorem length_of_reference? {s : List Char} {c : Char} {rest : List Char}
    (h : reference? s = some (c, rest)) : rest.length < s.length := by
  match s with
  | [] => simp [reference?] at h
  | a :: s =>
    unfold reference? at h
    split at h
    · rename_i s' hs
      obtain ⟨rfl, rfl⟩ := List.cons.inj hs
      obtain ⟨⟨name, after⟩, hcut, h⟩ := Option.bind_eq_some_iff.1 h
      obtain ⟨d, -, h⟩ := Option.bind_eq_some_iff.1 h
      obtain ⟨-, rfl⟩ := Prod.mk.inj (Option.some.inj h)
      rw [eq_of_cutAt? hcut]
      simp only [List.length_cons, List.length_append]
      omega
    · simp at h

/-- A text with its character references replaced by what they name. -/
def decode : List Char → List Char
  | [] => []
  | c :: s =>
    match h : reference? (c :: s) with
    | some (d, rest) =>
      have : rest.length < s.length + 1 := length_of_reference? h
      d :: decode rest
    | none => c :: decode s
termination_by s => s.length

end SqlTemplate.Markup
