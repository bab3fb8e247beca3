/-!
# Numerals

Integers written in digits. A numeral may carry a plus sign, an integer also a minus sign; blanks
and separators are refused, and the bounded readers refuse what does not fit.
-/

namespace SqlTemplate.Text

/-- The leading digits of a text and what follows them. -/
def spanDigits (s : List Char) : List Char × List Char :=
  (s.takeWhile Char.isDigit, s.dropWhile Char.isDigit)

/-- The value of a digit of base ten or sixteen. -/
def digitValue? (base : Nat) (c : Char) : Option Nat :=
  let v :=
    if c.isDigit then c.toNat - '0'.toNat
    else if 'a' ≤ c && c ≤ 'f' then c.toNat - 'a'.toNat + 10
    else if 'A' ≤ c && c ≤ 'F' then c.toNat - 'A'.toNat + 10
    else base
  if v < base then some v else none

/-- The number written by a list of digits, none of which is foreign to the base. -/
def digits? (base : Nat) (s : List Char) : Option Nat :=
  s.foldlM (fun n c => (digitValue? base c).map (base * n + ·)) 0

/-- A natural number: one digit or more, after an optional plus sign. -/
def natural? (base : Nat) : List Char → Option Nat
  | [] => none
  | '+' :: s => if s.isEmpty then none else digits? base s
  | s => digits? base s

/-- A natural number in decimal digits that is below `bound`. -/
def naturalBelow? (bound : Nat) (s : List Char) : Option Nat :=
  (natural? 10 s).filter (· < bound)

/-- An integer: a natural number, or one digit or more after a minus sign. -/
def integer? : List Char → Option Int
  | '-' :: s => if s.isEmpty then none else (digits? 10 s).map fun n => -(n : Int)
  | s => (natural? 10 s).map Int.ofNat

/-- An unsigned number of 32 bits. -/
def word32? (s : List Char) : Option Nat :=
  naturalBelow? 0x100000000 s

/-- An unsigned number of 64 bits, as list positions are. -/
def position? (s : List Char) : Option Nat :=
  naturalBelow? 0x10000000000000000 s

/-- Whether an integer is one of 64 bits with a sign. -/
def isInt64 (n : Int) : Bool :=
  -0x8000000000000000 ≤ n && n < 0x8000000000000000

end SqlTemplate.Text
