import Mathlib.Tactic.Common
import Retrace.Json.Numeral

/-! Numerals that stand for whole numbers. A run of digits is gathered exactly as long as its value fits
64 bits, and a numeral is read as a whole number only from such a run. -/
namespace Retrace.Json.Numeral
open Retrace.Numeral (digitsValue)

lemma le_ofDigitChars (digits : List Char) (s : Nat) : s ≤ Nat.ofDigitChars 10 digits s := by
  induction digits generalizing s with
  | nil => simp
  | cons c rest ih =>
    rw [Nat.ofDigitChars_cons]
    have := ih (10 * s + (c.toNat - '0'.toNat))
    omega

lemma full_addWhole {g : Gathered} (h : g.full) (digits : List Char) :
    (digits.foldl Gathered.addWhole g).full := by
  induction digits generalizing g with
  | nil => exact h
  | cons c rest ih => exact ih (by simp [Gathered.addWhole, h])

lemma foldl_addWhole_of_lt {digits : List Char} {s : Nat}
    (h : Nat.ofDigitChars 10 digits s < twoTo 64) :
    digits.foldl Gathered.addWhole ⟨s, 0, false⟩ = ⟨Nat.ofDigitChars 10 digits s, 0, false⟩ := by
  induction digits generalizing s with
  | nil => simp
  | cons c rest ih =>
    rw [Nat.ofDigitChars_cons, Nat.mul_comm 10 s] at h ⊢
    have hstep : s * 10 + (c.toNat - '0'.toNat) < twoTo 64 :=
      Nat.lt_of_le_of_lt (le_ofDigitChars rest _) h
    rw [List.foldl_cons]
    simp only [Gathered.addWhole, withDigit?, if_pos hstep]
    exact ih h

lemma foldl_addWhole_of_le {digits : List Char} {s : Nat} (hs : s < twoTo 64)
    (h : twoTo 64 ≤ Nat.ofDigitChars 10 digits s) :
    (digits.foldl Gathered.addWhole ⟨s, 0, false⟩).full := by
  induction digits generalizing s with
  | nil =>
    rw [Nat.ofDigitChars_nil] at h
    omega
  | cons c rest ih =>
    rw [Nat.ofDigitChars_cons, Nat.mul_comm 10 s] at h
    rw [List.foldl_cons]
    by_cases hstep : s * 10 + (c.toNat - '0'.toNat) < twoTo 64
    · simp only [Gathered.addWhole, withDigit?, if_pos hstep]
      exact ih hstep h
    · -- The first digit that does not fit; those behind it only raise the power of ten.
      refine full_addWhole ?_ rest
      simp only [Gathered.addWhole, withDigit?, if_neg hstep]
      rfl

lemma gatherWhole_of_lt {digits : List Char} (h : digitsValue digits < twoTo 64) :
    gatherWhole digits = ⟨digitsValue digits, 0, false⟩ :=
  foldl_addWhole_of_lt h

lemma gatherWhole_of_le {digits : List Char} (h : twoTo 64 ≤ digitsValue digits) :
    (gatherWhole digits).full :=
  foldl_addWhole_of_le (twoTo_pos 64) h

/-- A numeral stands for a natural number just where it is written with digits alone that fit 64 bits. -/
theorem value?_eq_whole_iff {n : Numeral} {k : Nat} :
    value? n = some (.whole k) ↔ n.negative = false ∧ n.fraction = none ∧ n.exponent = none ∧
      digitsValue n.whole = k ∧ k < twoTo 64 := by
  obtain ⟨negative, whole, fraction, exponent⟩ := n
  by_cases hfits : digitsValue whole < twoTo 64
  · simp only [value?, gatherWhole_of_lt hfits]
    cases fraction <;> cases exponent <;> cases negative <;> simp
    · omega
    · split_ifs <;> simp
      omega
  · have hfull := gatherWhole_of_le (Nat.le_of_not_lt hfits)
    simp only [value?, hfull, Bool.or_true, if_true]
    constructor
    · intro h
      obtain ⟨x, -, hx⟩ := Option.map_eq_some_iff.mp h
      cases hx
    · rintro ⟨-, -, -, rfl, hk⟩
      exact absurd hk hfits

theorem value?_of_negative {digits : List Char} (hpos : 0 < digitsValue digits)
    (hle : digitsValue digits ≤ twoTo 63) :
    value? ⟨true, digits, none, none⟩ = some (.whole (-(digitsValue digits : Int))) := by
  have hfits : digitsValue digits < twoTo 64 := Nat.lt_of_le_of_lt hle (by decide)
  simp [value?, gatherWhole_of_lt hfits, hpos, hle]

end Retrace.Json.Numeral
