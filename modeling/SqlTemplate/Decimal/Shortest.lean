/-!
# Shortest decimals

The decimal with the fewest digits that rounds to a given binary64 number, and of those the
nearest one. A finite number is `m * 2 ^ e`; the reals that round to it form an interval around
it, whose ends belong to it exactly when `m` is even. On a decimal grid the two grid points next
to the number decide whether any point lies in that interval, so grids are tried from coarse to
fine.
-/

namespace SqlTemplate.Decimal

/-- The number `digits * 10 ^ exponent`. -/
structure Scaled where
  digits : Nat
  exponent : Int
  deriving DecidableEq, Repr

/-- A decimal grid as seen from the multiples of a power of two: `x` multiples are
`x * factor / unit` steps of the grid. -/
structure Grid where
  factor : Nat
  unit : Nat

/-- The grid `10 ^ p` as seen from multiples of `2 ^ e`. -/
def Grid.of (e p : Int) : Grid where
  factor := Nat.pow 2 e.toNat * Nat.pow 10 (-p).toNat
  unit := Nat.pow 2 (-e).toNat * Nat.pow 10 p.toNat

/-- The reals that round to a number, in multiples of `2 ^ exponent`. -/
structure Rounding where
  low : Nat
  value : Nat
  high : Nat
  closed : Bool
  exponent : Int

/-- The least exponent of a binary64 number. -/
def leastExponent : Int := -1074

/-- The rounding interval of `m * 2 ^ e`. Below a power of two the next number is half as far as
above it, save for the least exponent. -/
def Rounding.of (m : Nat) (e : Int) : Rounding where
  low := if m = 0x10000000000000 ∧ leastExponent < e then 4 * m - 1 else 4 * m - 2
  value := 4 * m
  high := 4 * m + 2
  closed := m % 2 = 0
  exponent := e - 2

/-- Whether the point `c` of a grid rounds to the number. -/
def Rounding.holds (r : Rounding) (g : Grid) (c : Nat) : Bool :=
  if r.closed then r.low * g.factor ≤ c * g.unit && c * g.unit ≤ r.high * g.factor
  else r.low * g.factor < c * g.unit && c * g.unit < r.high * g.factor

/-- The point of a grid that rounds to the number, the nearer of two and the even one of two
equally near. -/
def Rounding.point? (r : Rounding) (g : Grid) : Option Nat :=
  let c := r.value * g.factor / g.unit
  match r.holds g c, r.holds g (c + 1) with
  | false, false => none
  | true, false => some c
  | false, true => some (c + 1)
  | true, true =>
    let below := r.value * g.factor - c * g.unit
    let above := (c + 1) * g.unit - r.value * g.factor
    if below < above ∨ (below = above ∧ c % 2 = 0) then some c else some (c + 1)

/-- The first hit on the grids `10 ^ p`, `10 ^ (p - 1)` and so on. -/
def Rounding.search (r : Rounding) (p : Int) : Nat → Scaled
  | 0 => ⟨r.value, p⟩
  | n + 1 =>
    match r.point? (.of r.exponent p) with
    | some c => ⟨c, p⟩
    | none => r.search (p - 1) n

/-- The number with the zeros at the end of its digits moved into the exponent. -/
def Scaled.normalized (d : Scaled) : Scaled :=
  go d.digits d.exponent d.digits
where
  go (digits : Nat) (exponent : Int) : Nat → Scaled
    | 0 => ⟨digits, exponent⟩
    | n + 1 =>
      if digits % 10 = 0 ∧ digits ≠ 0 then go (digits / 10) (exponent + 1) n else ⟨digits, exponent⟩

/-- An exponent with `m * 2 ^ e < 10 ^ p`, at most two too large. -/
def decimalBound (m : Nat) (e : Int) : Int :=
  let bits : Int := (Nat.log2 m : Int) + 1 + e
  bits * 30103 / 100000 + 1

/-- The shortest decimal that rounds to `m * 2 ^ e`. -/
def shortest (m : Nat) (e : Int) : Scaled :=
  ((Rounding.of m e).search (decimalBound m e) 21).normalized

/-- Where positional notation gives way to an exponent, and how the two are written. -/
structure Style where
  /-- The positional form is for numbers below `10 ^ largest`. -/
  largest : Int
  /-- The positional form is for numbers not below `10 ^ smallest`. -/
  smallest : Int

private def zeros (n : Int) : String :=
  .ofList (List.replicate n.toNat '0')

/-- The text of a positive decimal: positional with a fraction, or one digit, the others after a
point, and an exponent with its sign. -/
def Scaled.text (style : Style) (d : Scaled) : String :=
  let ds := Nat.toDigits 10 d.digits
  let point : Int := ds.length + d.exponent
  if 0 ≤ d.exponent ∧ point ≤ style.largest then
    .ofList ds ++ zeros d.exponent ++ ".0"
  else if 0 < point ∧ point ≤ style.largest then
    .ofList (ds.take point.toNat) ++ "." ++ .ofList (ds.drop point.toNat)
  else if style.smallest < point ∧ point ≤ 0 then
    "0." ++ zeros (-point) ++ .ofList ds
  else
    let fraction := if ds.length = 1 then "" else "." ++ .ofList (ds.drop 1)
    let mark := if point ≤ 0 then "e-" else "e+"
    .ofList (ds.take 1) ++ fraction ++ mark ++ toString (point - 1).natAbs

/-- The text of a number: its sign, then its shortest decimal. Numbers that are not finite have
the empty text. -/
def text (style : Style) (x : Float) : String :=
  match x.toModel.unpack with
  | .zero .positive => "0.0"
  | .zero .negative => "-0.0"
  | .finite .positive m e _ => (shortest m e).text style
  | .finite .negative m e _ => "-" ++ (shortest m e).text style
  | .infinity _ | .notANumber => ""

end SqlTemplate.Decimal
