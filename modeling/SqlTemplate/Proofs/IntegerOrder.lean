import Mathlib
import SqlTemplate.Proofs.ExactIntegers

/-!
# Comparing integers

Integers of 64 bits with a sign are compared as they are. Where one of two integers needs the sign
bit, both are compared as binary64 numbers, rounded to 53 bits. So what such a comparison says is
true of the integers unless two different ones are rounded to the same number.

## Main definitions

* `IsWord` : an integer has 64 bits, with a sign or without one.
* `BinaryOp.holds` : what a comparison says of two integers.

## Main results

* `Decimal.compareFloats?_ofInt` : the order of the binary64 numbers for two integers.
* `Value.looselyEquals_ofInt`, `Value.compare?_ofInt` : equality and order of integers as values.
* `Expr.integer_comparison` : what is compared, and when it is exact.
-/

namespace SqlTemplate

/-- An integer has 64 bits, with a sign or without one. -/
def IsWord (n : Int) : Prop :=
  -0x8000000000000000 ≤ n ∧ n < 0x10000000000000000

instance (n : Int) : Decidable (IsWord n) :=
  inferInstanceAs (Decidable (_ ∧ _))

variable {a b : Int}

theorem IsWord.natAbs_lt (ha : IsWord a) : a.natAbs < 2 ^ 64 := by
  rw [IsWord] at ha
  omega

namespace Decimal

open Float.Model (UnpackedFloat)

variable {x y : UnpackedFloat}

theorem Denotes.beq_iff (hx : Denotes x a) (hy : Denotes y b) : x.beq y = true ↔ a = b := by
  rw [UnpackedFloat.beq, hx.compare_eq hy, beq_iff_eq, Option.some.injEq, compare_eq_iff_eq]

theorem Denotes.lt_iff (hx : Denotes x a) (hy : Denotes y b) : x.lt y = true ↔ a < b := by
  rw [UnpackedFloat.lt, hx.compare_eq hy, beq_iff_eq, Option.some.injEq, compare_lt_iff_lt]

theorem beq_ofInt_iff (ha : IsWord a) (hb : IsWord b) :
    (Float.ofInt a == Float.ofInt b) = true ↔ nearestInteger a = nearestInteger b :=
  (denotes_ofInt ha.natAbs_lt).beq_iff (denotes_ofInt hb.natAbs_lt)

theorem lt_ofInt_iff (ha : IsWord a) (hb : IsWord b) :
    Float.ofInt a < Float.ofInt b ↔ nearestInteger a < nearestInteger b := by
  change decide ((Float.ofInt a).toModel < (Float.ofInt b).toModel) = true ↔ _
  rw [decide_eq_true_iff]
  exact (denotes_ofInt ha.natAbs_lt).lt_iff (denotes_ofInt hb.natAbs_lt)

/-- The binary64 numbers for two integers are in the order of what these are rounded to. -/
theorem compareFloats?_ofInt (ha : IsWord a) (hb : IsWord b) :
    Value.compareFloats? (Float.ofInt a) (Float.ofInt b) =
      some (compare (nearestInteger a) (nearestInteger b)) := by
  rw [Value.compareFloats?]
  simp only [lt_ofInt_iff ha hb, lt_ofInt_iff hb ha, beq_ofInt_iff ha hb]
  rcases lt_trichotomy (nearestInteger a) (nearestInteger b) with hlt | heq | hgt
  · rw [if_pos hlt, compare_lt_iff_lt.2 hlt]
  · rw [if_neg heq.not_lt, if_pos heq, compare_eq_iff_eq.2 heq]
  · rw [if_neg hgt.not_gt, if_neg hgt.ne', if_pos hgt, compare_gt_iff_gt.2 hgt]

end Decimal

open Text Decimal

/-- An integer as it is compared with another: as it is where both have 64 bits with a sign, and
rounded to 53 bits otherwise. -/
def seenBeside (a b : Int) : Int :=
  if isInt64 a ∧ isInt64 b then a else nearestInteger a

theorem seenBeside_of_isInt64 (ha : isInt64 a) (hb : isInt64 b) : seenBeside a b = a :=
  if_pos ⟨ha, hb⟩

theorem seenBeside_of_not_isInt64 (h : ¬ (isInt64 a ∧ isInt64 b)) :
    seenBeside a b = nearestInteger a ∧ seenBeside b a = nearestInteger b :=
  ⟨if_neg h, if_neg fun h' => h h'.symm⟩

/-! ### Values -/

namespace Value

variable {v w : Value} {x y : Number}

theorem sameNumber_of_not_isInteger (hv : v.number? = some x) (hw : w.number? = some y)
    (hkind : ¬ (x.isInteger = true ∧ y.isInteger = true)) :
    sameNumber v w = (x.toFloat == y.toFloat) := by
  rw [sameNumber, hv, hw]
  obtain ⟨f, rfl⟩ | ⟨m, g, rfl, rfl⟩ := Number.exists_of_not_isInteger hkind <;> rfl

theorem compare?_of_not_isInteger (hv : v.number? = some x) (hw : w.number? = some y)
    (hkind : ¬ (x.isInteger = true ∧ y.isInteger = true)) (htext : v.isString = false) :
    compare? v w = compareFloats? x.toFloat y.toFloat := by
  have htexts : ∀ s t, v = .string s → w = .string t → False := by
    rintro s t rfl
    cases htext
  rw [compare?, hv, hw]
  · obtain ⟨f, rfl⟩ | ⟨m, g, rfl, rfl⟩ := Number.exists_of_not_isInteger hkind <;> rfl
  · exact htexts

theorem looselyEquals_ofInt (ha : IsWord a) (hb : IsWord b) :
    (ofInt a).looselyEquals (ofInt b) = (seenBeside a b == seenBeside b a) := by
  change sameNumber (ofInt a) (ofInt b) = _
  by_cases hkind : isInt64 a ∧ isInt64 b
  · obtain ⟨hfirst, hsecond⟩ := hkind
    rw [seenBeside_of_isInt64 hfirst hsecond, seenBeside_of_isInt64 hsecond hfirst, sameNumber,
      number?_ofInt hfirst, number?_ofInt hsecond]
  · obtain ⟨hfirst, hsecond⟩ := seenBeside_of_not_isInt64 hkind
    rw [hfirst, hsecond, sameNumber_of_not_isInteger rfl rfl (by simpa using hkind),
      Number.toFloat_ofInteger, Number.toFloat_ofInteger, Bool.eq_iff_iff, beq_ofInt_iff ha hb,
      beq_iff_eq]

theorem compare?_ofInt (ha : IsWord a) (hb : IsWord b) :
    compare? (ofInt a) (ofInt b) = some (compare (seenBeside a b) (seenBeside b a)) := by
  by_cases hkind : isInt64 a ∧ isInt64 b
  · obtain ⟨hfirst, hsecond⟩ := hkind
    rw [seenBeside_of_isInt64 hfirst hsecond, seenBeside_of_isInt64 hsecond hfirst, compare?,
      number?_ofInt hfirst, number?_ofInt hsecond]
    exact nofun
  · obtain ⟨hfirst, hsecond⟩ := seenBeside_of_not_isInt64 hkind
    rw [hfirst, hsecond, compare?_of_not_isInteger rfl rfl (by simpa using hkind) rfl,
      Number.toFloat_ofInteger, Number.toFloat_ofInteger, compareFloats?_ofInt ha hb]

end Value

/-! ### Expressions -/

namespace BinaryOp

variable {op : BinaryOp}

/-- Whether an operator compares. -/
def isComparison : BinaryOp → Bool
  | .eq | .ne | .lt | .le | .gt | .ge => true
  | _ => false

/-- What a comparison says of two integers. -/
def holds (op : BinaryOp) (m n : Int) : Bool :=
  match op with
  | .eq => m == n
  | .ne => m != n
  | .lt => m < n
  | .le => m ≤ n
  | .gt => n < m
  | .ge => n ≤ m
  | _ => false

/-- What a comparison says depends on the order alone. -/
theorem holds_congr {m n m' n' : Int} (hlt : m < n ↔ m' < n') (hgt : n < m ↔ n' < m') :
    op.holds m n = op.holds m' n' := by
  rw [Bool.eq_iff_iff]
  cases op with
  | or | and | add | sub | mul | div | rem => exact Iff.rfl
  | eq | ne => simp only [holds, beq_iff_eq, bne_iff_ne]; omega
  | lt | le | gt | ge => simp only [holds, decide_eq_true_iff]; omega

/-- The four operators of the order ask for what they say. -/
theorem admits_compare (m n : Int) :
    BinaryOp.lt.admits (compare m n) = BinaryOp.lt.holds m n ∧
      BinaryOp.le.admits (compare m n) = BinaryOp.le.holds m n ∧
      BinaryOp.gt.admits (compare m n) = BinaryOp.gt.holds m n ∧
      BinaryOp.ge.admits (compare m n) = BinaryOp.ge.holds m n := by
  have hlt : (compare m n).isLT = true ↔ m < n :=
    Ordering.isLT_iff_eq_lt.trans compare_lt_iff_lt
  have hgt : (compare m n).isGT = true ↔ n < m :=
    Ordering.isGT_iff_eq_gt.trans compare_gt_iff_gt
  exact ⟨Bool.eq_iff_iff.2 (hlt.trans decide_eq_true_iff.symm),
    Bool.eq_iff_iff.2 (Int.isLE_compare.trans decide_eq_true_iff.symm),
    Bool.eq_iff_iff.2 (hgt.trans decide_eq_true_iff.symm),
    Bool.eq_iff_iff.2 (Int.isGE_compare.trans decide_eq_true_iff.symm)⟩

theorem apply_ofInt_of_isComparison (hop : op.isComparison) (ha : IsWord a) (hb : IsWord b) :
    op.apply (.ofInt a) (.ofInt b) = .ok (.bool (op.holds (seenBeside a b) (seenBeside b a))) := by
  have hequal := Value.looselyEquals_ofInt ha hb
  have hcompare (op : BinaryOp) : op.comparison (.ofInt a) (.ofInt b) =
      .ok (.bool (op.admits (compare (seenBeside a b) (seenBeside b a)))) := by
    rw [comparison, Value.compare?_ofInt ha hb]
    rfl
  obtain ⟨hlt, hle, hgt, hge⟩ := admits_compare (seenBeside a b) (seenBeside b a)
  cases op with
  | or | and | add | sub | mul | div | rem => cases hop
  | eq | ne => rw [apply, hequal]; rfl
  | lt => rw [apply, hcompare, hlt]
  | le => rw [apply, hcompare, hle]
  | gt => rw [apply, hcompare, hgt]
  | ge => rw [apply, hcompare, hge]

/-- Comparisons of two integers are exact where these are compared as they are, are the same or are
rounded apart. -/
theorem holds_seenBeside_iff :
    (∀ op : BinaryOp, op.isComparison →
        op.holds (seenBeside a b) (seenBeside b a) = op.holds a b) ↔
      (isInt64 a ∧ isInt64 b) ∨ a = b ∨ nearestInteger a ≠ nearestInteger b := by
  by_cases hkind : isInt64 a ∧ isInt64 b
  · refine iff_of_true (fun op hop => ?_) (.inl hkind)
    rw [seenBeside_of_isInt64 hkind.1 hkind.2, seenBeside_of_isInt64 hkind.2 hkind.1]
  · obtain ⟨hfirst, hsecond⟩ := seenBeside_of_not_isInt64 hkind
    rw [hfirst, hsecond]
    constructor
    · intro hexact
      have hequal := hexact .eq rfl
      rw [holds, holds, Bool.eq_iff_iff, beq_iff_eq, beq_iff_eq] at hequal
      by_cases hsame : a = b
      · exact .inr (.inl hsame)
      · exact .inr (.inr fun h => hsame (hequal.1 h))
    · rintro (h | rfl | hapart) op -
      · exact absurd h hkind
      · exact holds_congr (by omega) (by omega)
      · have hle := @nearestInteger_le a b
        have hge := @nearestInteger_le b a
        exact holds_congr (by omega) (by omega)

end BinaryOp

namespace Expr

variable {scope : Scope} {left right : Expr}

/-- Two integers of 64 bits are compared as they are if both have 64 bits with a sign, and rounded
to 53 bits otherwise. So all comparisons of them are exact, unless one of them has not 64 bits with
a sign and they are different integers that are rounded to the same. -/
theorem integer_comparison (ha : IsWord a) (hb : IsWord b)
    (hleft : left.evaluate scope = .ok (.ofInt a))
    (hright : right.evaluate scope = .ok (.ofInt b)) :
    (∀ op : BinaryOp, op.isComparison →
      (binary op left right).evaluate scope =
        .ok (.bool (op.holds (seenBeside a b) (seenBeside b a)))) ∧
    ((∀ op : BinaryOp, op.isComparison →
        (binary op left right).evaluate scope = .ok (.bool (op.holds a b))) ↔
      (isInt64 a ∧ isInt64 b) ∨ a = b ∨ nearestInteger a ≠ nearestInteger b) := by
  have hvalue (op : BinaryOp) (hop : op.isComparison) : (binary op left right).evaluate scope =
      .ok (.bool (op.holds (seenBeside a b) (seenBeside b a))) := by
    rw [evaluate_strict _ _ hleft hright]
    · exact BinaryOp.apply_ofInt_of_isComparison hop ha hb
    all_goals
      rintro rfl
      cases hop
  refine ⟨hvalue, Iff.trans ?_ BinaryOp.holds_seenBeside_iff⟩
  refine forall₂_congr fun op hop => ?_
  rw [hvalue op hop, Except.ok.injEq, Value.bool.injEq]

/-- Neighbours at the top of the integers with a sign, and two integers above them. -/
theorem integer_comparison_of_large :
    (∀ op : BinaryOp, op.isComparison →
        (binary op (name "a") (name "b")).evaluate
            (operands 0x7FFFFFFFFFFFFFFE 0x7FFFFFFFFFFFFFFF) =
          .ok (.bool (op.holds 0x7FFFFFFFFFFFFFFE 0x7FFFFFFFFFFFFFFF))) ∧
      (∀ op : BinaryOp, op.isComparison →
        (binary op (name "a") (name "b")).evaluate
            (operands 0x8000000000000000 0x8000000000000801) =
          .ok (.bool (op.holds 0x8000000000000000 0x8000000000000801))) := by
  obtain ⟨hleft, hright⟩ := evaluate_operands 0x7FFFFFFFFFFFFFFE 0x7FFFFFFFFFFFFFFF
  obtain ⟨hleft', hright'⟩ := evaluate_operands 0x8000000000000000 0x8000000000000801
  exact ⟨(integer_comparison (by decide) (by decide) hleft hright).2.2 (.inl (by decide)),
    (integer_comparison (by decide) (by decide) hleft' hright').2.2 (.inr (.inr (by decide)))⟩

/-- Two integers that are different are equal to `==`. -/
theorem large_integers_confused :
    IsWord 0x8000000000000000 ∧ IsWord 0x8000000000000001 ∧
      (binary .eq (name "a") (name "b")).evaluate
          (operands 0x8000000000000000 0x8000000000000001) = .ok (.bool true) := by
  refine ⟨by decide, by decide, ?_⟩
  obtain ⟨hleft, hright⟩ := evaluate_operands 0x8000000000000000 0x8000000000000001
  have halike : BinaryOp.eq.holds (seenBeside 0x8000000000000000 0x8000000000000001)
      (seenBeside 0x8000000000000001 0x8000000000000000) = true := by
    decide
  rw [evaluate_strict (by decide) (by decide) hleft hright,
    BinaryOp.apply_ofInt_of_isComparison rfl (by decide) (by decide), halike]

end Expr

end SqlTemplate
