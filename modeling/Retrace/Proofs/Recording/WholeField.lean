import Retrace.Proofs.Json.RoundTrip
import Retrace.Proofs.Number.DigitText
import Retrace.Proofs.Number.ExactValue
import Retrace.Proofs.Number.Rounding
import Retrace.Recording.Written

/-! Whole numbers in fields. A number written with digits alone is read exactly; a text, and every other
number, is read by way of a double, which keeps 53 binary digits and is cut off behind 64. -/
namespace Retrace
open Json (Value Scalar)

namespace Json

lemma readValue_compact_scalar {s : Scalar} (hin : s.InRange) (hs : ∀ x, s ≠ .number (.double x)) :
    readValue (Value.scalar s).compact = .ok (.scalar s) := by
  obtain ⟨node, hnode, hdocument⟩ := @ofText_compact (.scalar s) (.scalar hin)
    fun x hx => absurd (Value.hasDouble_scalar.mp hx) (hs x)
  rw [readValue]
  refine readText_eq_ok.mpr ⟨by rw [hdocument], ?_⟩
  rw [hdocument, hnode]
  rfl

end Json

namespace Field
open Magnitude (rounded spacing)

/-- A text of digits between blanks. -/
def digitsBetween (before after : List Char) (n : Nat) : Value :=
  .string (String.ofList (before ++ Nat.toDigits 10 n ++ after))

section
variable {before after : List Char} (hbefore : ∀ c ∈ before, Text.isBlank c)
  (hafter : ∀ c ∈ after, Text.isBlank c) {n : Nat} (h : n < twoTo 64)
include hbefore hafter h

lemma number_digitsBetween :
    number (digitsBetween before after n) = some (.ofRatio false n 1) := by
  have hrun := Numeral.isRun_toDigits n
  have hdigits : Numeral.digitsValue (Nat.toDigits 10 n) = n := Nat.ofDigitChars_ten_toDigits
  have htrim := Text.trim_append_append hbefore hafter hrun.ne_nil
    fun c hc => Text.isBlank_of_isDigit (hrun.isDigit c hc)
  rw [digitsBetween, Value.string, number, String.toList_ofList, htrim, Binary64.ofText?_digits hrun,
    Numeral.nearest_digits (hdigits.symm ▸ h), hdigits]

lemma whole_digitsBetween :
    whole (digitsBetween before after n) = some (min (rounded n) maxWhole) := by
  obtain ⟨x, hx, hnum⟩ := Magnitude.exists_ofNat_eq h.le
  have hdouble : Binary64.ofRatio false n 1 = .finite false x := by
    rw [Magnitude.ofNat] at hx
    rw [Binary64.ofRatio, hx]
  have hvalue : (Binary64.finite false x).value? = some ((rounded n : Nat) : ℚ) :=
    (value?_eq_natCast _).mpr ⟨.inl rfl, (x.value_eq_natCast _).mpr hnum⟩
  change (number (digitsBetween before after n)).bind wholeOfDouble = _
  rw [number_digitsBetween hbefore hafter h, Option.bind_some, hdouble]
  exact wholeOfDouble_eq_some_iff.mpr ⟨rounded n, hvalue, Magnitude.rounded_le h.le, rfl⟩

end

lemma whole_eq_bind {value : Value} (h : ∀ n : Nat, value ≠ wholeValue n) :
    whole value = (number value).bind wholeOfDouble := by
  unfold whole
  split
  · rename_i n
    exact absurd rfl (h n)
  · rfl

lemma min_rounded_eq_iff {n : Nat} (h : n < twoTo 64) :
    min (rounded n) maxWhole = n ↔ spacing n ∣ n ∨ n = maxWhole := by
  rw [← Magnitude.divHalfEven_mul_eq_iff n (Magnitude.spacing_pos n)]
  change _ ↔ rounded n = n ∨ _
  have hle : n ≤ maxWhole := Nat.le_sub_one_of_lt h
  by_cases hmax : n = maxWhole
  · subst hmax
    simp only [or_true, iff_true]
    decide
  · omega

/-- A whole number of 64 bits is read from a number as it is, and from a text as the nearest double. -/
theorem whole_of_number_and_text {n : Nat} (h : n < twoTo 64) {before after : List Char}
    (hbefore : ∀ c ∈ before, Text.isBlank c) (hafter : ∀ c ∈ after, Text.isBlank c) :
    (Json.readValue (toString n)).map whole = .ok (some n) ∧
    ∃ k, (Json.readValue (digitsBetween before after n).compact).map whole = .ok (some k) ∧
      k = min (rounded n) maxWhole ∧ 2 * ((k : Int) - n).natAbs ≤ spacing n ∧
      (k = n ↔ spacing n ∣ n ∨ n = maxWhole) := by
  have hle : n ≤ maxWhole := Nat.le_sub_one_of_lt h
  have hnumber : Json.readValue (toString n) = .ok (wholeValue n) := by
    have hcompact : (wholeValue n).compact = toString n := String.ofList_toList
    have hin : (Json.Number.whole n).InRange := ⟨by omega, Int.ofNat_lt.mpr h⟩
    rw [← hcompact]
    exact Json.readValue_compact_scalar hin (by simp)
  have htext : Json.readValue (digitsBetween before after n).compact =
      .ok (digitsBetween before after n) :=
    Json.readValue_compact_scalar trivial (by simp)
  have hdist := Magnitude.dist_divHalfEven_mul_le n (Magnitude.spacing_pos n)
  refine ⟨by rw [hnumber]; rfl, min (rounded n) maxWhole, ?_, rfl, ?_, min_rounded_eq_iff h⟩
  · rw [htext]
    exact congrArg Except.ok (whole_digitsBetween hbefore hafter h)
  · -- Cutting off a number that was rounded up brings it back towards the number.
    change 2 * (((rounded n : Nat) : Int) - n).natAbs ≤ _ at hdist
    omega

theorem whole_of_number_and_text_beside_each_other :
    let before := [' ', '\t']
    let after := ['\n', Char.ofNat 0x3000]
    (∀ c ∈ before, Text.isBlank c) ∧ (∀ c ∈ after, Text.isBlank c) ∧
    (Json.readValue (toString 18014398509481988)).map whole = .ok (some 18014398509481988) ∧
    (Json.readValue (digitsBetween before after 18014398509481988).compact).map whole =
      .ok (some 18014398509481988) ∧
    (Json.readValue (digitsBetween before after 18014398509481990).compact).map whole =
      .ok (some 18014398509481992) := by
  intro before after
  have hbefore : ∀ c ∈ before, Text.isBlank c :=
    List.forall_mem_cons.mpr ⟨by decide, List.forall_mem_singleton.mpr (by decide)⟩
  have hafter : ∀ c ∈ after, Text.isBlank c :=
    List.forall_mem_cons.mpr ⟨by decide, List.forall_mem_singleton.mpr (by decide)⟩
  obtain ⟨hnumber, k, htext, hk, -⟩ :=
    whole_of_number_and_text (n := 18014398509481988) (by decide) hbefore hafter
  obtain ⟨-, l, htext', hl, -⟩ :=
    whole_of_number_and_text (n := 18014398509481990) (by decide) hbefore hafter
  obtain rfl : k = 18014398509481988 := hk.trans (by decide +kernel)
  obtain rfl : l = 18014398509481992 := hl.trans (by decide +kernel)
  exact ⟨hbefore, hafter, hnumber, htext, htext'⟩

/-- One more than two to the 53rd, in a text, is read as the number before it, which is another frame. -/
theorem whole_of_text_meets_other_number :
    (Json.readValue "\"9007199254740993\"").map whole = .ok (some 9007199254740992) ∧
    (Json.readValue "9007199254740993").map whole = .ok (some 9007199254740993) ∧
    (Json.readValue "9007199254740992").map whole = .ok (some 9007199254740992) := by
  decide +kernel

/-- A value read by way of a double gives the whole number that this is, up to two to the 64th, which counts
as one less. -/
theorem whole_by_double {value : Value} {d : Binary64} (hnumber : number value = some d)
    (hexact : ∀ n : Nat, value ≠ wholeValue n) :
    (∀ k : Nat, whole value = some k ↔ d.value? = some (k : ℚ) ∧ k < twoTo 64 ∨
      d.value? = some (2 ^ 64) ∧ k = maxWhole) ∧
    (whole value = none ↔ ∀ k : Nat, k ≤ twoTo 64 → d.value? ≠ some (k : ℚ)) := by
  have hwhole : whole value = wholeOfDouble d := by
    rw [whole_eq_bind hexact, hnumber, Option.bind_some]
  have hpow : ((twoTo 64 : Nat) : ℚ) = 2 ^ 64 := cast_twoTo 64
  have hmax : twoTo 64 = maxWhole + 1 := by decide
  rw [hwhole]
  constructor
  · intro k
    rw [wholeOfDouble_eq_some_iff, ← hpow]
    constructor
    · rintro ⟨n, hn, hle, rfl⟩
      rcases Nat.lt_or_eq_of_le hle with hlt | rfl
      · rw [Nat.min_eq_left (Nat.le_of_lt_succ hlt)]
        exact .inl ⟨hn, hmax ▸ hlt⟩
      · exact .inr ⟨hmax ▸ hn, by omega⟩
    · rintro (⟨hk, hlt⟩ | ⟨hd, rfl⟩)
      · exact ⟨k, hk, by omega, by omega⟩
      · exact ⟨twoTo 64, hd, hmax.le, by omega⟩
  · rw [Option.eq_none_iff_forall_ne_some]
    simp only [ne_eq, wholeOfDouble_eq_some_iff, not_exists, not_and]
    constructor
    · intro h k hk hd
      exact h _ k hd (hmax ▸ hk) rfl
    · rintro h k n hd hle -
      exact h n (hmax ▸ hle) hd

theorem whole_by_double_below_64_bits :
    let value : Value := .string "\u00a018446744073709549568"
    let large : Binary64 := .finite false ⟨9007199254740991, 11⟩
    let half : Binary64 := .finite false ⟨4503599627370496, -53⟩
    (number value = some large ∧ (∀ n : Nat, value ≠ wholeValue n) ∧
      whole value = some 18446744073709549568) ∧
    number (.string ".5") = some half ∧ whole (.string ".5") = none := by
  intro value large half
  have hlarge : number value = some large := by decide +kernel
  have hhalf : number (.string ".5") = some half := by decide +kernel
  have htext (text : String) (n : Nat) : Value.string text ≠ wholeValue n := by
    simp [Value.string, wholeValue]
  have hlargeValue : large.value? = some ((18446744073709549568 : Nat) : ℚ) := by
    norm_num [large, Binary64.value?, Magnitude.value]
  have hhalfValue : half.value? = some (1 / 2) := by
    norm_num [half, Binary64.value?, Magnitude.value]
  refine ⟨⟨hlarge, htext _, ?_⟩, hhalf, ?_⟩
  · exact ((whole_by_double hlarge (htext _)).1 _).mpr (.inl ⟨hlargeValue, by decide⟩)
  · apply (whole_by_double hhalf (htext _)).2.mpr
    intro k hk hvalue
    have hk : (1 : ℚ) / 2 = k := Option.some.inj (hhalfValue.symm.trans hvalue)
    have htwice : 2 * k = 1 := by
      have h : (2 : ℚ) * k = 1 := by rw [← hk]; norm_num
      exact_mod_cast h
    omega

/-- Two to the 64th is read as the number before it, from digits and from a text. -/
theorem whole_of_first_too_large :
    let d : Binary64 := .finite false ⟨4503599627370496, 12⟩
    d.value? = some (2 ^ 64) ∧
    (Json.readValue "18446744073709551616").map number = .ok (some d) ∧
    (Json.readValue "18446744073709551616").map whole = .ok (some 18446744073709551615) ∧
    (Json.readValue "\"18446744073709551616\"").map number = .ok (some d) ∧
    (Json.readValue "\"18446744073709551616\"").map whole = .ok (some 18446744073709551615) := by
  intro d
  refine ⟨?_, by decide +kernel, by decide +kernel, by decide +kernel, by decide +kernel⟩
  norm_num [d, Binary64.value?, Magnitude.value]

end Field
end Retrace
