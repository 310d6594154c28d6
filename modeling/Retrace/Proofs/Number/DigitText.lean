import Mathlib.Data.List.TakeWhile
import Retrace.Proofs.Number.Spelling

/-! Digits between blanks. A numeric text loses its blanks, and a run of digits stands for the double that
is nearest to its value. -/
namespace Retrace

namespace Text

lemma isBlank_of_isDigit {c : Char} (h : c.isDigit) : isBlank c = false := by
  simp only [Char.isDigit, Bool.and_eq_true, decide_eq_true_eq] at h
  have hlow : 48 ≤ c.toNat := h.1
  have hhigh : c.toNat ≤ 57 := h.2
  simp only [isBlank, Bool.or_eq_false_iff, Bool.and_eq_false_iff, decide_eq_false_iff_not,
    beq_eq_false_iff_ne]
  omega

lemma dropWhile_append_of_head {before text rest : List Char} (hbefore : ∀ c ∈ before, isBlank c)
    (hne : text ≠ []) (htext : ∀ c ∈ text, isBlank c = false) :
    (before ++ (text ++ rest)).dropWhile isBlank = text ++ rest := by
  rw [List.dropWhile_append_of_pos hbefore]
  cases text with
  | nil => exact absurd rfl hne
  | cons c text => simp [htext c List.mem_cons_self]

lemma trim_append_append {before text after : List Char} (hbefore : ∀ c ∈ before, isBlank c)
    (hafter : ∀ c ∈ after, isBlank c) (hne : text ≠ []) (htext : ∀ c ∈ text, isBlank c = false) :
    trim (before ++ text ++ after) = text := by
  have hback := @dropWhile_append_of_head after.reverse text.reverse [] (by simpa using hafter)
    (by simpa using hne) (by simpa using htext)
  rw [trim, List.append_assoc, dropWhile_append_of_head hbefore hne htext, List.reverse_append]
  rw [List.append_nil] at hback
  rw [hback, List.reverse_reverse]

end Text

namespace Numeral

lemma nearest_digits {digits : List Char} (h : digitsValue digits < twoTo 64) :
    nearest ⟨false, digits, none, none⟩ = .ofRatio false (digitsValue digits) 1 := by
  have hlength : (Nat.toDigits 10 (digitsValue digits)).length ≤ 20 :=
    (Nat.length_toDigits_le_iff (by decide) (by decide)).mpr (Nat.lt_trans h (by decide))
  have hone : tenTo 0 = 1 := rfl
  simp only [nearest, Option.getD_none, List.append_nil, writtenExponent, List.length_nil]
  by_cases hzero : digitsValue digits = 0
  · simp [hzero, Binary64.zero, Binary64.ofRatio, Magnitude.ofRatio]
  · rw [if_neg hzero, if_neg (by omega), if_neg (by omega)]
    simp [hone]

end Numeral

namespace Binary64
open Numeral (IsRun digitsValue)

lemma toLower_of_isDigit {c : Char} (h : c.isDigit) : c.toLower = c := by
  simp only [Char.isDigit, Bool.and_eq_true, decide_eq_true_eq] at h
  have hupper : ¬ (c.val ≥ 'A'.val ∧ c.val ≤ 'Z'.val) := by
    rintro ⟨hlow, -⟩
    exact absurd (UInt32.le_trans hlow h.2) (by decide)
  exact dif_neg hupper

lemma ofText?_digits {digits : List Char} (h : IsRun digits) :
    ofText? digits = some (Numeral.nearest ⟨false, digits, none, none⟩) := by
  have htake := List.takeWhile_eq_self_iff.mpr h.isDigit
  have hdrop := List.dropWhile_eq_nil_iff.mpr h.isDigit
  have hword (word : String) (hw : ∃ c ∈ word.toList, c.isDigit = false) :
      String.ofList (digits.map Char.toLower) ≠ word := by
    rintro rfl
    obtain ⟨c, hc, hno⟩ := hw
    rw [String.toList_ofList] at hc
    obtain ⟨digit, hm, rfl⟩ := List.mem_map.mp hc
    have hdigit := h.isDigit digit hm
    rw [toLower_of_isDigit hdigit, hdigit] at hno
    cases hno
  have hbody : Numeral.ofBody? false digits = some ⟨false, digits, none, none⟩ := by
    simp [Numeral.ofBody?, htake, hdrop, Numeral.exponentPart?, h.ne_nil]
  have hinf := hword "inf" ⟨'i', by decide, rfl⟩
  have hinfinity := hword "infinity" ⟨'i', by decide, rfl⟩
  have hnan := hword "nan" ⟨'n', by decide, rfl⟩
  have hunsigned : ofUnsigned? false digits = some (Numeral.nearest ⟨false, digits, none, none⟩) := by
    simp [ofUnsigned?, hinf, hinfinity, hnan, hbody]
  unfold ofText?
  split
  · exact absurd (h.isDigit '-' List.mem_cons_self) (by decide)
  · exact absurd (h.isDigit '+' List.mem_cons_self) (by decide)
  · exact hunsigned

end Binary64

end Retrace
