/-!
# Exact remainders

The remainder of two binary64 numbers by truncated division: it has the sign of the dividend, a
smaller magnitude than the divisor, and it is always representable, so nothing is rounded.
-/

namespace SqlTemplate.Decimal

open Float.Model (UnpackedFloat Format)

/-- The binary64 number nearest to `m * 2 ^ e` under a sign. -/
def ofBinary (sign : UnpackedFloat.Sign) (m : Nat) (e : Int) : Float :=
  .ofModel (.pack (UnpackedFloat.round Format.binary64 sign m e))

/-- The remainder of `x` by `y`. It is not a number where `x` is infinite or `y` is zero. -/
def remainder (x y : Float) : Float :=
  match x.toModel.unpack, y.toModel.unpack with
  | .notANumber, _ | _, .notANumber | .infinity _, _ | _, .zero _ => 0.0 / 0.0
  | .zero _, _ | _, .infinity _ => x
  | .finite sign m e _, .finite _ n f _ =>
    let low := min e f
    ofBinary sign ((m <<< (e - low).toNat) % (n <<< (f - low).toNat)) low

end SqlTemplate.Decimal
