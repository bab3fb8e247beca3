import SqlTemplate.Text.LetterCase
import SqlTemplate.Text.Numeral

/-!
# Reading decimals

A decimal is an optional sign, digits with at most one point and at least one digit, and an
optional exponent; the words for infinity and for not-a-number are read as well. The number read
is the binary64 number nearest to the decimal.
-/

namespace SqlTemplate.Decimal

open Text

/-- The value of a list of decimal digits. -/
def digitsValue (s : List Char) : Nat :=
  s.foldl (fun n c => 10 * n + (c.toNat - '0'.toNat)) 0

/-- The binary64 number nearest to `m * 10 ^ e`. -/
def nearest (m : Nat) (e : Int) : Float :=
  match e with
  | .ofNat n => Float.ofScientific m false n
  | .negSucc n => Float.ofScientific m true (n + 1)

/-- An exponent: digits after an optional sign, and nothing else. -/
def exponent? (s : List Char) : Option Int :=
  match s with
  | '-' :: r => if r.isEmpty then none else (digits? 10 r).map fun n => -(n : Int)
  | '+' :: r => if r.isEmpty then none else (digits? 10 r).map Int.ofNat
  | [] => none
  | r => (digits? 10 r).map Int.ofNat

/-- A decimal without a sign. -/
def unsigned? (s : List Char) : Option Float :=
  let (whole, rest) := spanDigits s
  let (fraction, rest) := match rest with
    | '.' :: r => spanDigits r
    | r => ([], r)
  if whole.isEmpty && fraction.isEmpty then
    match String.ofList (asciiLower s) with
    | "inf" | "infinity" => some (1.0 / 0.0)
    | "nan" => some (0.0 / 0.0)
    | _ => none
  else
    let scaled (e : Int) := nearest (digitsValue (whole ++ fraction)) (e - fraction.length)
    match rest with
    | [] => some (scaled 0)
    | c :: r => if c = 'e' ∨ c = 'E' then (exponent? r).map scaled else none

/-- The number that a decimal writes. -/
def float? : List Char → Option Float
  | '-' :: s => (unsigned? s).map (-·)
  | '+' :: s => unsigned? s
  | s => unsigned? s

end SqlTemplate.Decimal
