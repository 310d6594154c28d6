import Mathlib.Algebra.Order.Ring.Nat
import Mathlib.Data.Nat.Log
import Mathlib.Tactic.Common
import Retrace.Number.Binary64

/-! Whole numbers as doubles. A double keeps 53 binary digits, so from two to the 53rd on the whole numbers
that are doubles lie apart, and every other one goes to its nearest neighbour. -/
namespace Retrace.Magnitude

/-- How far apart the doubles lie from the power of two below a whole number on; one where all whole numbers
are doubles. -/
def spacing (n : Nat) : Nat := twoTo (n.log2 - 52)

/-- The whole number that a whole number is rounded to as a double. -/
def rounded (n : Nat) : Nat := divHalfEven n (spacing n) * spacing n

lemma twoTo_succ (n : Nat) : twoTo (n + 1) = 2 * twoTo n := Nat.pow_succ'

lemma spacing_pos (n : Nat) : 0 < spacing n := twoTo_pos _

/-! ### Rounding to a multiple -/

lemma divHalfEven_cases (n d : Nat) :
    divHalfEven n d = n / d ∧ 2 * (n % d) ≤ d ∨ divHalfEven n d = n / d + 1 ∧ d ≤ 2 * (n % d) := by
  simp only [divHalfEven]
  split_ifs with hbelow habove
  · exact .inl ⟨rfl, Nat.le_of_lt hbelow⟩
  · exact .inr ⟨rfl, Nat.le_of_lt habove⟩
  · rcases Nat.mod_two_eq_zero_or_one (n / d) with h | h
    · exact .inl ⟨by rw [h, Nat.add_zero], Nat.le_of_not_lt habove⟩
    · exact .inr ⟨by rw [h], Nat.le_of_not_lt hbelow⟩

lemma divHalfEven_one (n : Nat) : divHalfEven n 1 = n := by
  rcases divHalfEven_cases n 1 with ⟨h, -⟩ | ⟨-, h⟩
  · rw [h, Nat.div_one]
  · simp [Nat.mod_one] at h

lemma dist_divHalfEven_mul_le (n : Nat) {d : Nat} (hd : 0 < d) :
    2 * ((divHalfEven n d * d : Nat) - n : Int).natAbs ≤ d := by
  have hdivision := Nat.div_add_mod n d
  have hmod := Nat.mod_lt n hd
  rw [Nat.mul_comm] at hdivision
  rcases divHalfEven_cases n d with ⟨h, hhalf⟩ | ⟨h, hhalf⟩
  · rw [h]
    omega
  · rw [h, Nat.add_mul, Nat.one_mul]
    omega

lemma divHalfEven_mul_eq_iff (n : Nat) {d : Nat} (hd : 0 < d) :
    divHalfEven n d * d = n ↔ d ∣ n := by
  constructor
  · intro h
    exact ⟨divHalfEven n d, by rw [Nat.mul_comm, h]⟩
  · rintro ⟨q, rfl⟩
    have hcases := divHalfEven_cases (d * q) d
    rw [Nat.mul_mod_right, Nat.mul_div_cancel_left q hd] at hcases
    rcases hcases with ⟨h, -⟩ | ⟨-, h⟩
    · rw [h, Nat.mul_comm]
    · omega

lemma divHalfEven_le {n d q : Nat} (hd : 0 < d) (h : n ≤ q * d) : divHalfEven n d ≤ q := by
  have hdivision := Nat.div_add_mod n d
  have hfloor : n / d ≤ q := Nat.div_le_of_le_mul (by rwa [Nat.mul_comm])
  rcases divHalfEven_cases n d with ⟨he, -⟩ | ⟨he, hhalf⟩
  · rw [he]
    exact hfloor
  · have hne : n / d ≠ q := by
      rintro rfl
      rw [Nat.mul_comm] at h
      omega
    omega

/-! ### The double of a whole number -/

lemma placeOf_one {n : Nat} (hn : n ≠ 0) : placeOf n 1 = (n.log2 : Int) - 52 := by
  have hlow : twoTo n.log2 ≤ n := Nat.log2_self_le hn
  have hlog : (1 : Nat).log2 = 0 := by decide
  simp only [placeOf, hlog]
  rw [if_pos]
  · simp [minExponent]
    omega
  · simpa [twoTo] using hlow

lemma ofNat_of_log2_le {n : Nat} (h : n.log2 ≤ 52) :
    ∃ x, ofNat n = some x ∧ x.num = n * x.den := by
  by_cases hn : n = 0
  · exact ⟨.zero, by rw [hn]; rfl, by simp [hn, num, zero]⟩
  have hlog : n < 2 ^ (n.log2 + 1) := Nat.lt_log2_self
  have hbits : n * twoTo (52 - n.log2) < 2 * hiddenBit := by
    calc n * twoTo (52 - n.log2) < 2 ^ (n.log2 + 1) * 2 ^ (52 - n.log2) :=
          Nat.mul_lt_mul_of_pos_right hlog (Nat.two_pow_pos _)
      _ = 2 * hiddenBit := by
          rw [← Nat.pow_add, show n.log2 + 1 + (52 - n.log2) = 53 by omega]
          rfl
  have hplace : ((n.log2 : Int) - 52).toNat = 0 := by omega
  have hup : (-((n.log2 : Int) - 52)).toNat = 52 - n.log2 := by omega
  have hone : 1 * twoTo 0 = 1 := rfl
  refine ⟨⟨n * twoTo (52 - n.log2), n.log2 - 52⟩, ?_, ?_⟩
  · simp only [ofNat, ofRatio, if_neg hn, placeOf_one hn, hplace, hup, hone, divHalfEven_one,
      if_neg hbits.ne]
    rw [if_pos]
    simp only [maxExponent]
    omega
  · simp only [num, den, hplace, hup]
    exact Nat.mul_one _

lemma ofNat_of_lt_log2 {n : Nat} (h : 52 < n.log2) (hmax : n.log2 ≤ 64) :
    ∃ x, ofNat n = some x ∧ x.num = rounded n * x.den := by
  have hn : n ≠ 0 := by
    rintro rfl
    simp at h
  have hplace : ((n.log2 : Int) - 52).toNat = n.log2 - 52 := by omega
  have hup : (-((n.log2 : Int) - 52)).toNat = 0 := by omega
  have hnum : n * twoTo 0 = n := Nat.mul_one n
  have hden : 1 * twoTo (n.log2 - 52) = spacing n := Nat.one_mul _
  simp only [ofNat, ofRatio, if_neg hn, placeOf_one hn, hplace, hup, hnum, hden]
  split_ifs with hcarry hle hle
  · refine ⟨_, rfl, ?_⟩
    have hnext : ((n.log2 : Int) - 52 + 1).toNat = n.log2 - 52 + 1 := by omega
    have hnone : (-((n.log2 : Int) - 52 + 1)).toNat = 0 := by omega
    have hone : twoTo 0 = 1 := rfl
    simp only [num, den, hnext, hnone, rounded, hcarry, hone, Nat.mul_one, twoTo_succ]
    rw [spacing, ← Nat.mul_assoc, Nat.mul_comm hiddenBit]
  · simp only [maxExponent] at hle
    omega
  · refine ⟨_, rfl, ?_⟩
    simp only [num, den, hplace, hup]
    exact (Nat.mul_one _).symm
  · simp only [maxExponent] at hle
    omega

lemma rounded_of_log2_le {n : Nat} (h : n.log2 ≤ 52) : rounded n = n := by
  have hspacing : spacing n = 1 := by
    rw [spacing, Nat.sub_eq_zero_of_le h]
    rfl
  rw [rounded, hspacing, divHalfEven_one, Nat.mul_one]

lemma log2_le_of_le {n : Nat} (h : n ≤ twoTo 64) : n.log2 ≤ 64 := by
  by_cases hn : n = 0
  · simp [hn]
  · exact Nat.le_of_lt_succ ((Nat.log2_lt hn).mpr (Nat.lt_of_le_of_lt h (by decide)))

lemma rounded_le {n : Nat} (h : n ≤ twoTo 64) : rounded n ≤ twoTo 64 := by
  have hlog := log2_le_of_le h
  have hpow : twoTo (64 - (n.log2 - 52)) * spacing n = twoTo 64 := by
    change 2 ^ (64 - (n.log2 - 52)) * 2 ^ (n.log2 - 52) = 2 ^ 64
    rw [← Nat.pow_add]
    congr 1
    omega
  rw [← hpow] at h ⊢
  exact Nat.mul_le_mul_right _ (divHalfEven_le (spacing_pos n) h)

theorem exists_ofNat_eq {n : Nat} (h : n ≤ twoTo 64) :
    ∃ x, ofNat n = some x ∧ x.num = rounded n * x.den := by
  by_cases hlog : n.log2 ≤ 52
  · rw [rounded_of_log2_le hlog]
    exact ofNat_of_log2_le hlog
  · exact ofNat_of_lt_log2 (Nat.lt_of_not_le hlog) (log2_le_of_le h)

end Retrace.Magnitude
