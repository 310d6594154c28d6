import Retrace.Proofs.Number.Rounding
import Retrace.Proofs.Number.Spelling

/-! Doubles in plain text. A finite double is written as a decimal without an exponent, and only a finite
one is: the others are words. -/
namespace Retrace

/-- A text that is a decimal: an optional minus, digits, and an optional fraction. -/
def IsDecimal (text : String) : Prop :=
  ∃ n : Numeral, n.WellFormed ∧ n.exponent = none ∧ text.toList = n.spelled

lemma IsDecimal.exists_digit {text : String} (h : IsDecimal text) :
    ∃ negative c rest, text.toList = Numeral.signText negative ++ c :: rest ∧ c.isDigit := by
  obtain ⟨n, hn, -, htext⟩ := h
  obtain ⟨c, whole, hwhole⟩ := List.exists_cons_of_ne_nil hn.whole.ne_nil
  refine ⟨n.negative, c, whole ++ (Numeral.fractionText n.fraction ++ Numeral.exponentText n.exponent),
    ?_, hn.whole.isDigit c (by simp [hwhole])⟩
  rw [htext, Numeral.spelled, hwhole, List.cons_append]

namespace NumberStyle
open Numeral

lemma plain_magnitude_spelled (negative : Bool) (size : Magnitude) :
    ∃ n : Numeral, n.WellFormed ∧ n.negative = negative ∧ n.exponent = none ∧
      (plain.magnitude size).toList = n.whole ++ fractionText n.fraction := by
  obtain ⟨n, hn, hnegative, hexponent, -, htext⟩ :=
    @withPoint_spelled plain none rfl (by simp) negative _ _ before_of_digits_eq_zero
  exact ⟨n, hn, hnegative, hexponent, htext⟩

lemma isDecimal_plain_finite (negative : Bool) (size : Magnitude) :
    IsDecimal (plain.text (.finite negative size)) := by
  obtain ⟨n, hn, hnegative, hexponent, htext⟩ := plain_magnitude_spelled negative size
  refine ⟨n, hn, hexponent, ?_⟩
  rw [text, spelled, hnegative, String.toList_append, htext, hexponent, signText]
  cases negative <;> simp [exponentText]

/-- The words for what is no finite number. -/
def words : List String := ["NaN", "inf", "-inf"]

lemma not_isDecimal_of_mem_words {word : String} (h : word ∈ words) : ¬ IsDecimal word := by
  intro hdecimal
  obtain ⟨negative, c, rest, htext, hc⟩ := hdecimal.exists_digit
  simp only [words, List.mem_cons, List.not_mem_nil, or_false] at h
  rcases h with rfl | rfl | rfl <;> cases negative <;> simp [signText] at htext <;>
    simp [← htext.1] at hc

end NumberStyle

lemma Binary64.isFinite_ofInt {i : Int} (h : i.natAbs ≤ twoTo 64) : (ofInt i).isFinite := by
  obtain ⟨size, hsize, -⟩ := Magnitude.exists_ofNat_eq h
  rw [ofInt, ofRatio, show Magnitude.ofRatio i.natAbs 1 = some size from hsize]
  rfl

end Retrace
