import Retrace.Json.Token
import Retrace.Proofs.Json.NumeralText
import Retrace.Proofs.Json.QuotedText

/-! The tokens of printed scalars. A scalar is printed as one token, which holds it; the tokens behind
it are those of the text that follows. -/
namespace Retrace.Json
open Retrace.Json.Numeral (Stops)

/-- A number that is printed as the spelling of a numeral that stands for it. -/
def Number.Spelled (number : Number) : Prop :=
  ∃ n : Retrace.Numeral, n.WellFormed ∧ number.print = n.spelled ∧ Numeral.value? n = some number

/-- Scalars that come back from their text. -/
def Scalar.Spelled : Scalar → Prop
  | .number n => n.Spelled
  | _ => True

namespace Token

/-- A token that a reader takes for a scalar. -/
inductive Holds : Token → Scalar → Prop
  | plain {start stop : Nat} {s : Scalar} {skim : Option Fault} :
    Holds ⟨start, stop, .plain (.ok s) skim⟩ s
  | string {start stop : Nat} {text : String} {skim : Option Fault} :
    Holds ⟨start, stop, .string (.ok text) skim⟩ (.string text)

lemma Holds.ne_closeArray {token : Token} {s : Scalar} (h : token.Holds s) :
    token.kind ≠ .closeArray := by
  cases h <;> simp

lemma all_cons {c : Char} (h : isSpace c = false) (rest : List Char) (offset : Nat) :
    all (c :: rest) offset = (scan c rest offset).token ::
      all (scan c rest offset).rest (scan c rest offset).token.stop := by
  rw [all]
  simp [h]

lemma readWord_append (word rest : List Char) (offset : Nat) :
    readWord word (word ++ rest) offset = .ok rest := by
  induction word generalizing offset with
  | nil => cases rest <;> rfl
  | cons c word ih =>
    rw [List.cons_append, readWord, if_pos rfl]
    exact ih (offset + 1)

lemma all_word {c : Char} {word : List Char} {s : Scalar}
    (hscan : ∀ text start, scan c text start = ofWord s word text start) (hspace : isSpace c = false)
    (rest : List Char) (offset : Nat) :
    ∃ token, Holds token s ∧ all (c :: word ++ rest) offset = token :: all rest token.stop := by
  rw [List.cons_append, all_cons hspace, hscan, ofWord, readWord_append]
  exact ⟨_, .plain, rfl⟩

lemma all_quoted (text : String) (rest : List Char) (offset : Nat) :
    ∃ stop, all (quoted text ++ rest) offset =
      ⟨offset, stop, .string (.ok text) none⟩ :: all rest stop := by
  obtain ⟨stop, hskip⟩ := Literal.skip_quoted text.toList rest (offset + 1)
  obtain ⟨stop', hread⟩ := Literal.read_quoted text.toList [] rest (offset + 1)
  have hquoted : quoted text ++ rest = '"' :: (text.toList.flatMap escaped ++ '"' :: rest) := by
    simp [quoted]
  refine ⟨stop, ?_⟩
  rw [hquoted, all_cons (by decide)]
  simp only [scan, ofString, hskip, hread]
  simp [Except.map]

lemma scan_number {c : Char} (h : c = '-' ∨ c.isDigit) (text : List Char) (start : Nat) :
    scan c text start = ofNumber (c :: text) start := by
  unfold scan
  dsimp only
  split
  case h_11 => rw [if_pos (by simpa using h)]
  all_goals exact absurd h (by decide)

lemma head_spelled {n : Retrace.Numeral} (h : n.WellFormed) :
    ∃ c text, n.spelled = c :: text ∧ (c = '-' ∨ c.isDigit) := by
  unfold Retrace.Numeral.spelled Retrace.Numeral.signText
  cases hneg : n.negative with
  | true => exact ⟨'-', _, rfl, .inl rfl⟩
  | false =>
    cases hwhole : n.whole with
    | nil => exact absurd hwhole h.whole.ne_nil
    | cons c whole => exact ⟨c, _, rfl, .inr (h.whole.isDigit c (by simp [hwhole]))⟩

lemma all_spelled {n : Retrace.Numeral} (h : n.WellFormed) {rest : List Char} (hrest : Stops rest)
    (offset : Nat) : ∃ stop, all (n.spelled ++ rest) offset =
      ⟨offset, stop, .plain ((Numeral.number n stop).map Scalar.number) none⟩ :: all rest stop := by
  obtain ⟨stop, hread⟩ := Numeral.read_spelled offset h hrest
  obtain ⟨c, text, he, hc⟩ := head_spelled h
  have hspace : isSpace c = false := by
    rcases hc with rfl | hc
    · decide
    · by_contra hs
      simp only [isSpace, Bool.not_eq_false, Bool.or_eq_true, beq_iff_eq] at hs
      rcases hs with ((rfl | rfl) | rfl) | rfl <;> exact absurd hc (by decide)
  refine ⟨stop, ?_⟩
  rw [he, List.cons_append] at hread ⊢
  rw [all_cons hspace, scan_number hc, ofNumber, hread]

theorem all_scalar {s : Scalar} (h : s.Spelled) {rest : List Char} (hrest : Stops rest)
    (offset : Nat) :
    ∃ token, Holds token s ∧ all (s.print ++ rest) offset = token :: all rest token.stop := by
  cases s with
  | null => exact all_word (fun _ _ => rfl) (by decide) rest offset
  | bool b =>
    cases b with
    | true => exact all_word (fun _ _ => rfl) (by decide) rest offset
    | false => exact all_word (fun _ _ => rfl) (by decide) rest offset
  | number number =>
    obtain ⟨n, hn, hprint, hvalue⟩ := h
    obtain ⟨stop, hall⟩ := all_spelled hn hrest offset
    refine ⟨_, ?_, by rw [Scalar.print, hprint, hall]⟩
    rw [Numeral.number, hvalue]
    exact .plain
  | string text =>
    obtain ⟨stop, hall⟩ := all_quoted text rest offset
    exact ⟨_, .string, hall⟩

end Token
end Retrace.Json
