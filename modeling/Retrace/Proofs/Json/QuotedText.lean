import Mathlib.Tactic.Common
import Retrace.Json.Literal
import Retrace.Json.Printer

/-! A quoted text is read back: every character is written as one letter escape, as a code of four hex
digits or as it is, and the reader knows each of these forms from its first characters. -/
namespace Retrace.Json

lemma escaped_cases (c : Char) :
    (∃ letter, Literal.letterEscape? letter = some c ∧ escaped c = ['\\', letter]) ∨
      (c.toNat < 32 ∧ escaped c = '\\' :: 'u' :: hexDigits c.toNat 4) ∨
      (32 ≤ c.toNat ∧ c ≠ '"' ∧ c ≠ '\\' ∧ escaped c = [c]) := by
  unfold escaped
  split
  case h_8 hquote hslash _ _ _ _ _ =>
    by_cases hc : c.toNat < 32
    · exact .inr (.inl ⟨hc, if_pos hc⟩)
    · exact .inr (.inr ⟨Nat.le_of_not_lt hc, hquote, hslash, if_neg hc⟩)
  all_goals exact .inl ⟨_, rfl, rfl⟩

namespace Literal

lemma hexCode_control {n : Nat} (h : n < 32) (rest : List Char) (offset : Nat) :
    hexCode (hexDigits n 4 ++ rest) offset = .ok ⟨n, rest, offset + 4⟩ := by
  have hdigits : ∀ n < 32,
      hexDigits n 4 = ['0', '0', Nat.digitChar (n / 16), Nat.digitChar (n % 16)] := by decide
  have hvalue : ∀ n < 32,
      hexValue? '0' '0' (Nat.digitChar (n / 16)) (Nat.digitChar (n % 16)) = some n := by decide
  simp only [hdigits n h, hexCode, List.cons_append, List.nil_append, hvalue n h]

lemma readEscape_control {c : Char} (h : c.toNat < 32) (rest : List Char) (offset : Nat) :
    readEscape ('u' :: (hexDigits c.toNat 4 ++ rest)) offset = .ok ⟨c, rest, offset + 5⟩ := by
  have hlead : isLeading c.toNat = false := by simp [isLeading]; omega
  have htrail : isTrailing c.toNat = false := by simp [isTrailing]; omega
  simp [readEscape, hexCode_control h, bind, Except.bind, pure, Except.pure, hlead, htrail]

lemma skipEscape_control {c : Char} (h : c.toNat < 32) (rest : List Char) (offset : Nat) :
    skipEscape ('u' :: (hexDigits c.toNat 4 ++ rest)) offset = .ok ⟨(), rest, offset + 5⟩ := by
  simp [skipEscape, hexCode_control h, bind, Except.bind, pure, Except.pure]

lemma readEscape_letter {letter c : Char} (h : letterEscape? letter = some c)
    (rest : List Char) (offset : Nat) :
    readEscape (letter :: rest) offset = .ok ⟨c, rest, offset + 1⟩ := by
  have hu : letter ≠ 'u' := by
    rintro rfl
    cases h
  simp [readEscape, h]

lemma skipEscape_letter {letter c : Char} (h : letterEscape? letter = some c)
    (rest : List Char) (offset : Nat) :
    skipEscape (letter :: rest) offset = .ok ⟨(), rest, offset + 1⟩ := by
  have hu : letter ≠ 'u' := by
    rintro rfl
    cases h
  simp [skipEscape, h]

lemma read_backslash {done rest : List Char} {offset : Nat} {step : Step Char}
    (h : readEscape rest (offset + 1) = .ok step) :
    read done ('\\' :: rest) offset = read (step.value :: done) step.rest step.offset := by
  rw [read]
  split
  · simp_all
  · simp_all

lemma skip_backslash {rest : List Char} {offset : Nat} {step : Step Unit}
    (h : skipEscape rest (offset + 1) = .ok step) :
    skip ('\\' :: rest) offset = skip step.rest step.offset := by
  rw [skip]
  split
  · simp_all
  · simp_all

lemma read_escaped (c : Char) (done rest : List Char) (offset : Nat) :
    ∃ next, read done (escaped c ++ rest) offset = read (c :: done) rest next := by
  rcases escaped_cases c with ⟨letter, hl, he⟩ | ⟨hc, he⟩ | ⟨hc, hquote, hslash, he⟩
  · refine ⟨offset + 2, ?_⟩
    rw [he, List.cons_append, List.cons_append, List.nil_append]
    exact read_backslash (readEscape_letter hl rest (offset + 1))
  · refine ⟨offset + 6, ?_⟩
    rw [he, List.cons_append, List.cons_append]
    exact read_backslash (readEscape_control hc rest (offset + 1))
  · refine ⟨offset + c.utf8Size, ?_⟩
    rw [he, List.cons_append, List.nil_append, read]
    · rw [if_neg (Nat.not_lt.mpr hc)]
    · exact hquote
    · exact hslash

lemma skip_escaped (c : Char) (rest : List Char) (offset : Nat) :
    ∃ next, skip (escaped c ++ rest) offset = skip rest next := by
  rcases escaped_cases c with ⟨letter, hl, he⟩ | ⟨hc, he⟩ | ⟨hc, hquote, hslash, he⟩
  · refine ⟨offset + 2, ?_⟩
    rw [he, List.cons_append, List.cons_append, List.nil_append]
    exact skip_backslash (skipEscape_letter hl rest (offset + 1))
  · refine ⟨offset + 6, ?_⟩
    rw [he, List.cons_append, List.cons_append]
    exact skip_backslash (skipEscape_control hc rest (offset + 1))
  · refine ⟨offset + c.utf8Size, ?_⟩
    rw [he, List.cons_append, List.nil_append, skip]
    · rw [if_neg (Nat.not_lt.mpr hc)]
    · exact hquote
    · exact hslash

theorem read_quoted (text done rest : List Char) (offset : Nat) :
    ∃ stop, read done (text.flatMap escaped ++ '"' :: rest) offset =
      .ok ⟨String.ofList (done.reverse ++ text), rest, stop⟩ := by
  induction text generalizing done offset with
  | nil =>
    refine ⟨offset + 1, ?_⟩
    rw [List.flatMap_nil, List.nil_append, List.append_nil, read]
  | cons c text ih =>
    rw [List.flatMap_cons, List.append_assoc]
    obtain ⟨next, hnext⟩ := read_escaped c done (text.flatMap escaped ++ '"' :: rest) offset
    obtain ⟨stop, hstop⟩ := ih (c :: done) next
    exact ⟨stop, by rw [hnext, hstop, List.reverse_cons, List.append_assoc, List.singleton_append]⟩

theorem skip_quoted (text rest : List Char) (offset : Nat) :
    ∃ stop, skip (text.flatMap escaped ++ '"' :: rest) offset = .ok ⟨(), rest, stop⟩ := by
  induction text generalizing offset with
  | nil =>
    refine ⟨offset + 1, ?_⟩
    rw [List.flatMap_nil, List.nil_append, skip]
  | cons c text ih =>
    rw [List.flatMap_cons, List.append_assoc]
    obtain ⟨next, hnext⟩ := skip_escaped c (text.flatMap escaped ++ '"' :: rest) offset
    obtain ⟨stop, hstop⟩ := ih next
    exact ⟨stop, hnext.trans hstop⟩

end Literal
end Retrace.Json
