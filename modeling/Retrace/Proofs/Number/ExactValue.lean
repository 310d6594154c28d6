import Mathlib.Algebra.Order.Field.Rat
import Mathlib.Tactic.Linarith
import Retrace.Recording.Field

/-! The exact value of a double, as a fraction. The numerator and the denominator of a size are those of its
value, so a size is whole when its value is, and what a field makes of a double can be told from the value. -/
namespace Retrace

/-- The value of a size. -/
def Magnitude.value (x : Magnitude) : ℚ := x.significand * 2 ^ x.exponent

/-- The value of a double; none of those that are no number. -/
def Binary64.value? : Binary64 → Option ℚ
  | .finite negative size => some (if negative then -size.value else size.value)
  | _ => none

lemma cast_twoTo (n : Nat) : (twoTo n : ℚ) = 2 ^ n := Nat.cast_pow 2 n

namespace Magnitude

lemma value_eq_div (x : Magnitude) : x.value = x.num / x.den := by
  rw [value, num, den, Nat.cast_mul, cast_twoTo, cast_twoTo, mul_div_assoc]
  congr 1
  rcases Int.le_total 0 x.exponent with h | h
  · obtain ⟨e, he⟩ := Int.eq_ofNat_of_zero_le h
    simp [he]
  · obtain ⟨e, he⟩ := Int.exists_eq_neg_ofNat h
    simp [he]

lemma den_ne_zero (x : Magnitude) : (x.den : ℚ) ≠ 0 := Nat.cast_ne_zero.mpr x.den_pos.ne'

lemma value_nonneg (x : Magnitude) : 0 ≤ x.value := by
  rw [value_eq_div]
  exact div_nonneg (Nat.cast_nonneg _) (Nat.cast_nonneg _)

lemma value_eq_natCast (x : Magnitude) (k : Nat) : x.value = k ↔ x.num = k * x.den := by
  rw [value_eq_div, div_eq_iff x.den_ne_zero]
  exact_mod_cast Iff.rfl

lemma isZero_iff (x : Magnitude) : x.isZero ↔ x.value = 0 := by
  rw [← Nat.cast_zero, value_eq_natCast, Nat.zero_mul, num]
  simp [isZero, (twoTo_pos _).ne']

lemma value_eq_natCast_iff (x : Magnitude) (k : Nat) :
    x.value = k ↔ x.isWhole ∧ x.floor = k := by
  have hdivision := Nat.div_add_mod x.num x.den
  rw [value_eq_natCast, isWhole, floor, beq_iff_eq]
  constructor
  · intro h
    rw [h]
    exact ⟨Nat.mul_mod_left k x.den, Nat.mul_div_cancel k x.den_pos⟩
  · rintro ⟨hmod, hdiv⟩
    rw [hmod, hdiv, Nat.add_zero, Nat.mul_comm] at hdivision
    exact hdivision.symm

end Magnitude

namespace Field
open Binary64 (value?)

lemma value?_eq_natCast {negative : Bool} {size : Magnitude} (k : Nat) :
    value? (.finite negative size) = some (k : ℚ) ↔
      (negative = false ∨ size.isZero) ∧ size.value = k := by
  have hnonneg := size.value_nonneg
  have hk : (0 : ℚ) ≤ k := Nat.cast_nonneg k
  rw [size.isZero_iff]
  cases negative with
  | false => simp [value?]
  | true =>
    simp only [value?, if_true, Option.some.injEq, Bool.true_eq_false, false_or]
    constructor
    · intro h
      have hzero : size.value = 0 := by linarith
      exact ⟨hzero, by linarith⟩
    · rintro ⟨hzero, h⟩
      linarith

/-- A double is read as the whole number that it is, up to two to the 64th, which counts as one less. -/
theorem wholeOfDouble_eq_some_iff {d : Binary64} {k : Nat} : wholeOfDouble d = some k ↔
    ∃ n : Nat, value? d = some (n : ℚ) ∧ n ≤ maxWhole + 1 ∧ k = min n maxWhole := by
  cases d with
  | nan => simp [wholeOfDouble, value?]
  | infinite negative => simp [wholeOfDouble, value?]
  | finite negative size =>
    simp only [value?_eq_natCast, wholeOfDouble]
    by_cases hzero : size.isZero
    · have hvalue := size.isZero_iff.mp hzero
      simp only [hzero, if_true, or_true, true_and, hvalue, Option.some.injEq]
      constructor
      · rintro rfl
        exact ⟨0, Nat.cast_zero.symm, Nat.zero_le _, rfl⟩
      · rintro ⟨n, hn, -, rfl⟩
        obtain rfl : n = 0 := Nat.cast_eq_zero.mp hn.symm
        rfl
    · simp only [hzero, Bool.false_eq_true, if_false, or_false]
      cases negative with
      | true => simp
      | false =>
        simp only [Bool.not_false, Bool.true_and, Bool.and_eq_true, decide_eq_true_eq, true_and,
          Magnitude.value_eq_natCast_iff]
        split_ifs with h
        · simp only [Option.some.injEq]
          constructor
          · rintro rfl
            exact ⟨size.floor, ⟨h.1, rfl⟩, h.2, rfl⟩
          · rintro ⟨n, ⟨-, rfl⟩, -, rfl⟩
            rfl
        · simp only [false_iff, not_exists, not_and]
          rintro n ⟨hwhole, rfl⟩ hn
          exact absurd ⟨hwhole, hn⟩ h

end Field
end Retrace
