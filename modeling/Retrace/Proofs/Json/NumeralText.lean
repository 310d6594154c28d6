import Retrace.Json.Numeral
import Retrace.Proofs.Number.Spelling

/-! The JSON reader takes a spelled numeral apart into the parts it was spelled from, and stops where
the spelling does. -/
namespace Retrace

namespace Json.Numeral
open Literal (Step)
open Retrace.Numeral (IsRun WellFormed signText fractionText exponentText spelled)

/-- A text that does not go on with a digit. -/
def NoDigitHead (text : List Char) : Prop := ∀ c, text.head? = some c → c.isDigit = false

/-- A text that no numeral goes on with. -/
def Stops (text : List Char) : Prop :=
  ∀ c, text.head? = some c → c.isDigit = false ∧ c ≠ '.' ∧ c ≠ 'e' ∧ c ≠ 'E'

lemma stops_nil : Stops [] := by simp [Stops]

lemma Stops.noDigitHead {text : List Char} (h : Stops text) : NoDigitHead text :=
  fun c hc => (h c hc).1

variable {rest : List Char} (offset : Nat)

lemma digitRun_append {digits : List Char} (h : ∀ c ∈ digits, c.isDigit) (hrest : NoDigitHead rest) :
    digitRun (digits ++ rest) offset = ⟨digits, rest, offset + digits.length⟩ := by
  have htake : rest.takeWhile Char.isDigit = [] := by
    cases rest with
    | nil => rfl
    | cons c rest => simp [hrest c rfl]
  have hdrop : rest.dropWhile Char.isDigit = rest := by
    cases rest with
    | nil => rfl
    | cons c rest => simp [hrest c rfl]
  simp [digitRun, List.takeWhile_append_of_pos h, List.dropWhile_append_of_pos h, htake, hdrop]

lemma wholePart_append {digits : List Char} (h : IsRun digits)
    (hfirst : digits = ['0'] ∨ digits.head? ≠ some '0') (hrest : NoDigitHead rest) :
    wholePart (digits ++ rest) offset = .ok ⟨digits, rest, offset + digits.length⟩ := by
  rcases hfirst with rfl | hfirst
  · have hhead : (rest.head?.map Char.isDigit).getD false = false := by
      cases hc : rest.head? with
      | none => rfl
      | some c => exact hrest c hc
    simp [wholePart, hhead]
  · have hne : digits.isEmpty = false := by simpa using h.ne_nil
    have hzero : ∀ text, digits ++ rest ≠ '0' :: text := by
      intro text he
      cases digits with
      | nil => exact h.ne_nil rfl
      | cons c digits => exact hfirst (by simp_all)
    unfold wholePart
    split
    · rename_i he
      exact absurd he (hzero _)
    · simp [digitRun_append offset h.isDigit hrest, hne]

lemma fractionPart_append {fraction : Option (List Char)}
    (h : ∀ digits, fraction = some digits → IsRun digits) (hrest : NoDigitHead rest)
    (hpoint : rest.head? ≠ some '.') :
    ∃ stop, fractionPart (fractionText fraction ++ rest) offset = .ok ⟨fraction, rest, stop⟩ := by
  cases fraction with
  | none =>
    refine ⟨offset, ?_⟩
    unfold fractionPart
    split
    · rename_i he
      simp_all [fractionText]
    · rfl
  | some digits =>
    have hrun := h digits rfl
    have hne : digits.isEmpty = false := by simpa using hrun.ne_nil
    refine ⟨offset + 1 + digits.length, ?_⟩
    simp [fractionText, fractionPart, digitRun_append (offset + 1) hrun.isDigit hrest, hne]

lemma exponentPart_append {exponent : Option (Bool × List Char)}
    (h : ∀ negative digits, exponent = some (negative, digits) → IsRun digits) (hrest : Stops rest) :
    ∃ stop, exponentPart (exponentText exponent ++ rest) offset = .ok ⟨exponent, rest, stop⟩ := by
  cases exponent with
  | none =>
    refine ⟨offset, ?_⟩
    cases rest with
    | nil => rfl
    | cons c rest =>
      obtain ⟨-, -, he, hE⟩ := hrest c rfl
      simp [exponentText, exponentPart, he, hE]
  | some part =>
    obtain ⟨negative, digits⟩ := part
    have hrun := h negative digits rfl
    have hne : digits.isEmpty = false := by simpa using hrun.ne_nil
    refine ⟨offset + 2 + digits.length, ?_⟩
    cases negative <;>
      simp [exponentText, exponentPart, exponentDigits,
        digitRun_append (offset + 2) hrun.isDigit hrest.noDigitHead, hne]

lemma noDigitHead_exponentText (exponent : Option (Bool × List Char)) (hrest : Stops rest) :
    NoDigitHead (exponentText exponent ++ rest) ∧ (exponentText exponent ++ rest).head? ≠ some '.' := by
  cases exponent with
  | none => exact ⟨hrest.noDigitHead, fun h => (hrest _ h).2.1 rfl⟩
  | some part =>
    obtain ⟨negative, digits⟩ := part
    simp [exponentText, NoDigitHead]

lemma noDigitHead_fractionText (fraction : Option (List Char)) (hrest : NoDigitHead rest) :
    NoDigitHead (fractionText fraction ++ rest) := by
  cases fraction with
  | none => exact hrest
  | some digits => simp [fractionText, NoDigitHead]

lemma readUnsigned_append {n : Retrace.Numeral} (h : n.WellFormed) (hrest : Stops rest) :
    ∃ stop, readUnsigned n.negative
      (n.whole ++ (fractionText n.fraction ++ exponentText n.exponent) ++ rest) offset =
        .ok ⟨n, rest, stop⟩ := by
  obtain ⟨hnodigit, hpoint⟩ := noDigitHead_exponentText n.exponent hrest
  have hwhole := wholePart_append offset h.whole h.first
    (noDigitHead_fractionText n.fraction hnodigit)
  obtain ⟨mid, hfraction⟩ :=
    fractionPart_append (offset + n.whole.length) h.fraction hnodigit hpoint
  obtain ⟨stop, hexponent⟩ := exponentPart_append mid h.exponent hrest
  refine ⟨stop, ?_⟩
  rw [List.append_assoc, List.append_assoc, readUnsigned, hwhole]
  simp only [bind, Except.bind]
  rw [hfraction]
  simp only
  rw [hexponent]
  rfl

/-- A spelled numeral is read as it was spelled. -/
theorem read_spelled {n : Retrace.Numeral} (h : n.WellFormed) (hrest : Stops rest) :
    ∃ stop, Numeral.read (n.spelled ++ rest) offset = .ok ⟨n, rest, stop⟩ := by
  obtain ⟨negative, whole, fraction, exponent⟩ := n
  cases negative with
  | true =>
    obtain ⟨stop, hread⟩ := readUnsigned_append (offset + 1) h hrest
    exact ⟨stop, hread⟩
  | false =>
    obtain ⟨stop, hread⟩ := readUnsigned_append offset h hrest
    refine ⟨stop, ?_⟩
    have hminus : ∀ text, whole ++ (fractionText fraction ++ exponentText exponent) ++ rest ≠
        '-' :: text := by
      intro text he
      cases whole with
      | nil => exact h.whole.ne_nil rfl
      | cons c whole =>
        obtain rfl : c = '-' := (List.cons.inj he).1
        exact absurd (h.whole.isDigit '-' List.mem_cons_self) (by decide)
    rw [spelled, signText, if_neg Bool.false_ne_true, List.nil_append, Numeral.read]
    · exact hread
    · exact hminus

end Json.Numeral
end Retrace
