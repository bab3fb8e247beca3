import SqlTemplate.Entries
import SqlTemplate.Json.Value
import SqlTemplate.Text.Numeral
import SqlTemplate.Text.Parts
import SqlTemplate.Text.Reading

/-!
# Reading JSON

A reader of JSON text. It keeps the kind of a number: digits alone give an integer where they fit
in 64 bits, everything else a binary64 number. Containers may be nested up to a fixed depth, and
a text that is not JSON gives no value.
-/

namespace SqlTemplate.Json

open Text

/-! ## Numbers -/

/-- The power of ten as a binary64 number. -/
def power (n : Nat) : Float :=
  Float.ofScientific 1 false n

/-- The number `x * 10 ^ e`, scaled by one power of ten after another. It is missing where it
leaves the range. -/
def scaled? (x : Float) (e : Int) : Option Float :=
  if e < -308 then
    if x == 0.0 then some x else scaled? (x / power 308) (e + 308)
  else if e < 0 then some (x / power (-e).toNat)
  else if x == 0.0 then some x
  else if 308 < e then none
  else
    let y := x * power e.toNat
    if y.isInf then none else some y
termination_by (-e).toNat

/-- Digits appended to a number for as long as it fits in 64 bits, and the digits left over. -/
def appendDigits (n : Nat) : List Char → Nat × List Char
  | [] => (n, [])
  | c :: rest =>
    let next := 10 * n + (c.toNat - '0'.toNat)
    if next < 0x10000000000000000 then appendDigits next rest else (n, c :: rest)

/-- The parts of a numeral: whether it is negative, its whole digits, the digits after a point and
the exponent, where they are written. -/
structure Numeral where
  negative : Bool
  whole : List Char
  fraction : Option (List Char)
  exponent : Option (Bool × List Char)

/-- The largest exponent whose digits are read at their value. -/
def largestExponent : Nat := 0x7FFFFFFF

/-- The number that a numeral stands for. -/
def Numeral.number? (n : Numeral) : Option Number :=
  let (m, left) := appendDigits 0 n.whole
  let signed (x : Float) : Float := if n.negative then -x else x
  match n.fraction, n.exponent, left with
  | none, none, [] =>
    if !n.negative then some (.int m)
    else if 0 < m ∧ m ≤ 0x8000000000000000 then some (.int (-m))
    else some (.float (-(Float.ofNat m)))
  | fraction, exponent, left =>
    let digits := fraction.getD []
    let (m, dropped) := appendDigits m digits
    let shift : Int := left.length - (digits.length - dropped.length : Nat)
    match exponent with
    | none => (scaled? (Float.ofNat m) shift).map (.float <| signed ·)
    | some (down, ds) =>
      let e := ds.foldl (fun e c => 10 * e + (c.toNat - '0'.toNat)) 0
      if largestExponent < e then
        if m ≠ 0 ∧ !down then none else some (.float (signed 0.0))
      else
        (scaled? (Float.ofNat m) (if down then shift - e else shift + e)).map (.float <| signed ·)

/-- The parts of the numeral at the front of a text, and what follows it. -/
def numeral? (s : List Char) : Option (Numeral × List Char) := do
  let (negative, s) := match s with
    | '-' :: r => (true, r)
    | r => (false, r)
  let (whole, s) := spanDigits s
  if whole.isEmpty || (whole.head? == some '0' && 1 < whole.length) then none
  let (fraction, s) ← match s with
    | '.' :: r =>
      let (ds, r) := spanDigits r
      if ds.isEmpty then none else some (some ds, r)
    | r => some (none, r)
  let exponentMark := match s with
    | 'e' :: r | 'E' :: r => some r
    | _ => none
  match exponentMark with
  | none => return (⟨negative, whole, fraction, none⟩, s)
  | some r =>
    let (down, r) := match r with
      | '-' :: r => (true, r)
      | '+' :: r => (false, r)
      | r => (false, r)
    let (ds, r) := spanDigits r
    if ds.isEmpty then none
    return (⟨negative, whole, fraction, some (down, ds)⟩, r)

/-! ## Strings -/

/-- Four hexadecimal digits. -/
def code? : List Char → Option (Nat × List Char)
  | a :: b :: c :: d :: rest => do
    let a ← digitValue? 16 a
    let b ← digitValue? 16 b
    let c ← digitValue? 16 c
    let d ← digitValue? 16 d
    return (((a * 16 + b) * 16 + c) * 16 + d, rest)
  | _ => none

/-- The character after `\u`, which takes two escapes beyond the basic plane. -/
def codeChar? (s : List Char) : Option (Char × List Char) := do
  let (n, rest) ← code? s
  if n < 0xD800 ∨ 0xDFFF < n then return (.ofNat n, rest)
  if 0xDBFF < n then none
  match rest with
  | '\\' :: 'u' :: rest =>
    let (m, rest) ← code? rest
    if m < 0xDC00 ∨ 0xDFFF < m then none
    return (.ofNat (0x10000 + (n - 0xD800) * 0x400 + (m - 0xDC00)), rest)
  | _ => none

/-- The character after a backslash. -/
def escape? : List Char → Option (Char × List Char)
  | '"' :: rest => some ('"', rest)
  | '\\' :: rest => some ('\\', rest)
  | '/' :: rest => some ('/', rest)
  | 'b' :: rest => some ('\x08', rest)
  | 'f' :: rest => some ('\x0c', rest)
  | 'n' :: rest => some ('\n', rest)
  | 'r' :: rest => some ('\r', rest)
  | 't' :: rest => some ('\t', rest)
  | 'u' :: rest => codeChar? rest
  | _ => none

/-- The characters up to the closing quote. The fuel is a bound on the length of the text. -/
def stringTail? : Nat → List Char → Option (List Char × List Char)
  | 0, _ => none
  | _ + 1, [] => none
  | n + 1, c :: rest =>
    if c = '"' then some ([], rest)
    else if c = '\\' then do
      let (c, rest) ← escape? rest
      let (cs, rest) ← stringTail? n rest
      return (c :: cs, rest)
    else if c.toNat < 32 then none
    else do
      let (cs, rest) ← stringTail? n rest
      return (c :: cs, rest)

/-- The string after its opening quote. -/
def string? (s : List Char) : Option (String × List Char) :=
  (stringTail? (s.length + 1) s).map fun r => (.ofList r.1, r.2)

/-! ## Values -/

/-- A reader of something at the front of a text. -/
abbrev Reader (α : Type) := List Char → Option (α × List Char)

/-- Items up to the closing bracket, of which the first is due. The fuel is a bound on their
number. -/
def items? {α : Type} (item : Reader α) (closing : Char) : Nat → Reader (List α)
  | 0, _ => none
  | n + 1, s => do
    let (v, s) ← item (skipGap s)
    match skipGap s with
    | ',' :: s =>
      let (vs, s) ← items? item closing n s
      return (v :: vs, s)
    | c :: s => if c = closing then return ([v], s) else none
    | [] => none

/-- The items after an opening bracket. -/
def container? {α : Type} (item : Reader α) (closing : Char) : Reader (List α) := fun s =>
  match skipGap s with
  | [] => none
  | c :: rest => if c = closing then some ([], rest) else items? item closing s.length (c :: rest)

/-- A field of an object: a name in quotes, a colon and a value. -/
def field? (value : Reader Value) : Reader (String × Value) := fun s =>
  match s with
  | '"' :: s => do
    let (name, s) ← string? s
    match skipGap s with
    | ':' :: s =>
      let (v, s) ← value s
      return ((name, v), s)
    | _ => none
  | _ => none

/-- The value at the front of a text, with at most `depth` containers around any part of it. -/
def value? : (depth : Nat) → Reader Value
  | depth, s =>
    match depth, skipGap s with
    | d + 1, '[' :: s => (container? (value? d) ']' s).map fun r => (.array r.1, r.2)
    | d + 1, '{' :: s => (container? (field? (value? d)) '}' s).map fun r => (.ofFields r.1, r.2)
    | _, '"' :: s => (string? s).map fun r => (.string r.1, r.2)
    | _, s =>
      match after? "null".toList s, after? "true".toList s, after? "false".toList s with
      | some rest, _, _ => some (.null, rest)
      | _, some rest, _ => some (.bool true, rest)
      | _, _, some rest => some (.bool false, rest)
      | none, none, none => do
        let (n, rest) ← numeral? s
        return (.number (← n.number?), rest)

/-- The depth to which containers may be nested. -/
def depthLimit : Nat := 127

/-- The value that a text writes, with nothing around it but white space. -/
def parse? (s : String) : Option Value := do
  let (v, rest) ← value? depthLimit s.toList
  if (skipGap rest).isEmpty then return v else none

end SqlTemplate.Json
