import Mathlib.Algebra.Order.Field.Power
import Mathlib.Algebra.Order.Field.Rat
import Parlance.Number
/-!
The exact values of numbers. A finite number is a sign and so many units of a power of ten or two,
which is a rational (value?). Whether it is an integer, and which one, is seen from the coefficient
and the exponent without the power (toInt?_eq_some_iff).
-/

namespace Parlance

/-- So many units of a power of a base, with a sign. -/
def scaled (negative : Bool) (base coefficient : Nat) (exponent : Int) : ℚ :=
  (if negative then -1 else 1) * (coefficient * (base : ℚ) ^ exponent)

/-- The natural number that so many units of a power of a base are, if they are one. -/
def whole? (base coefficient : Nat) (exponent : Int) : Option Nat :=
  if 0 ≤ exponent then some (coefficient * base ^ exponent.toNat)
  else if coefficient % base ^ (-exponent).toNat = 0 then
    some (coefficient / base ^ (-exponent).toNat)
  else none

/-- An integer with a sign; a zero may carry a minus sign. -/
def signed (negative : Bool) (n : Nat) : Int := if negative then -(n : Int) else n

section Whole

variable {base coefficient n : Nat} {exponent : Int}

theorem natCast_eq_div_iff {d : Nat} (hd : 0 < d) :
    (n : ℚ) = coefficient / d ↔ coefficient % d = 0 ∧ coefficient / d = n := by
  have hne : (d : ℚ) ≠ 0 := Nat.cast_ne_zero.2 (Nat.ne_of_gt hd)
  rw [eq_div_iff hne]
  norm_cast
  constructor
  · rintro rfl
    exact ⟨Nat.mul_mod_left n d, Nat.mul_div_cancel n hd⟩
  · rintro ⟨hmod, rfl⟩
    exact Nat.div_mul_cancel (Nat.dvd_of_mod_eq_zero hmod)

theorem whole?_eq_some_iff (hbase : 0 < base) :
    whole? base coefficient exponent = some n ↔ (n : ℚ) = coefficient * (base : ℚ) ^ exponent := by
  rw [whole?]
  split
  · next h =>
    obtain ⟨places, rfl⟩ := Int.eq_ofNat_of_zero_le h
    rw [Option.some.injEq, Int.toNat_natCast, zpow_natCast]
    norm_cast
    exact eq_comm
  · next h =>
    obtain ⟨places, rfl⟩ : ∃ places : Nat, exponent = -(places : Int) :=
      ⟨(-exponent).toNat, by omega⟩
    have hpower : (n : ℚ) = coefficient / (base ^ places : Nat) ↔
        coefficient % base ^ places = 0 ∧ coefficient / base ^ places = n :=
      natCast_eq_div_iff (Nat.pow_pos hbase)
    rw [neg_neg, Int.toNat_natCast, zpow_neg, zpow_natCast, ← div_eq_mul_inv, ← Nat.cast_pow,
      hpower]
    split
    · next hmod => simp [hmod]
    · next hmod => simp [hmod]

/-- A number that is whole and its coefficient: one is a multiple of the other. -/
theorem multiple_of_whole? (h : whole? base coefficient exponent = some n) :
    0 ≤ exponent ∧ n = coefficient * base ^ exponent.toNat ∨
      exponent < 0 ∧ coefficient = n * base ^ (-exponent).toNat := by
  rw [whole?] at h
  split at h
  · next hexponent => exact .inl ⟨hexponent, (Option.some.inj h).symm⟩
  · next hexponent =>
    obtain ⟨hmod, hquotient⟩ := Option.ite_none_right_eq_some.1 h
    refine .inr ⟨Int.not_le.1 hexponent, ?_⟩
    rw [← Option.some.inj hquotient, Nat.div_mul_cancel (Nat.dvd_of_mod_eq_zero hmod)]

theorem coefficient_eq_zero_iff (hbase : 0 < base)
    (h : whole? base coefficient exponent = some n) : coefficient = 0 ↔ n = 0 := by
  have hpower (places : Nat) : base ^ places ≠ 0 := Nat.ne_of_gt (Nat.pow_pos hbase)
  rcases multiple_of_whole? h with ⟨-, rfl⟩ | ⟨-, rfl⟩
  · rw [Nat.mul_eq_zero, or_iff_left (hpower _)]
  · rw [Nat.mul_eq_zero, or_iff_left (hpower _)]

end Whole

section Scaled

variable {negative : Bool} {base coefficient : Nat} {exponent : Int}

theorem intCast_signed (negative : Bool) (n : Nat) :
    ((signed negative n : Int) : ℚ) = (if negative then -1 else 1) * n := by
  cases negative <;> simp [signed]

/-- A signed number is an integer exactly if its magnitude is a natural number. -/
theorem map_signed_whole?_eq_some_iff (hbase : 0 < base) {k : Int} :
    (whole? base coefficient exponent).map (signed negative) = some k ↔
      (k : ℚ) = scaled negative base coefficient exponent := by
  rw [Option.map_eq_some_iff, scaled]
  constructor
  · rintro ⟨n, hn, rfl⟩
    rw [intCast_signed, (whole?_eq_some_iff hbase).1 hn]
  · intro h
    have hmagnitude : 0 ≤ (coefficient : ℚ) * (base : ℚ) ^ exponent :=
      mul_nonneg (Nat.cast_nonneg coefficient) (zpow_nonneg (Nat.cast_nonneg base) exponent)
    have hsign : (k.natAbs : ℚ) = coefficient * (base : ℚ) ^ exponent := by
      rw [Nat.cast_natAbs, Int.cast_abs, h, abs_mul, abs_of_nonneg hmagnitude]
      cases negative <;> simp
    refine ⟨k.natAbs, (whole?_eq_some_iff hbase).2 hsign, ?_⟩
    exact_mod_cast (intCast_signed negative k.natAbs).trans ((congrArg _ hsign).trans h.symm)

end Scaled

namespace Number

/-- The exact value of a finite number. -/
def value? : Number → Option ℚ
  | .integer n => some n
  | .double (.finite negative mantissa exponent) => some (scaled negative 2 mantissa exponent)
  | .double _ => none
  | .decimal (.finite negative coefficient exponent) =>
    some (scaled negative 10 coefficient exponent)
  | .decimal _ => none

/-- The integer that a number is, if it is one. -/
def toInt? : Number → Option Int
  | .integer n => some n
  | .double x => x.toInt?
  | .decimal (.finite negative coefficient exponent) =>
    (whole? 10 coefficient exponent).map (signed negative)
  | .decimal _ => none

theorem toInt?_double (negative : Bool) (mantissa : Nat) (exponent : Int) :
    (Double.finite negative mantissa exponent).toInt? =
      (whole? 2 mantissa exponent).map (signed negative) := by
  rw [Double.toInt?, whole?]
  split
  · rfl
  · change (if mantissa % 2 ^ (-exponent).toNat = 0 then _ else _) = _
    split <;> rfl

/-- A number is an integer exactly if its value is that integer. -/
theorem toInt?_eq_some_iff {n : Number} {k : Int} :
    n.toInt? = some k ↔ n.value? = some (k : ℚ) := by
  match n with
  | .integer n => simp [toInt?, value?]
  | .double (.finite negative mantissa exponent) =>
    rw [toInt?, toInt?_double, map_signed_whole?_eq_some_iff (by decide), value?,
      Option.some.injEq]
    exact eq_comm
  | .double (.infinite _) | .double .nan => simp [toInt?, Double.toInt?, value?]
  | .decimal (.finite negative coefficient exponent) =>
    rw [toInt?, map_signed_whole?_eq_some_iff (by decide), value?, Option.some.injEq]
    exact eq_comm
  | .decimal (.infinite _) | .decimal (.nan ..) => simp [toInt?, value?]

end Number

end Parlance
