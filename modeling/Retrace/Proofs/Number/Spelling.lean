import Mathlib.Tactic.Common
import Retrace.Number.Numeral
import Retrace.Number.Written

/-! The spelling of numerals, and that the numbers of JSON texts are written as one: a whole number as
its digits, a finite double with a fraction or an exponent. -/
namespace Retrace

namespace Numeral

/-- A run of digits, not empty. -/
structure IsRun (digits : List Char) : Prop where
  ne_nil : digits ≠ []
  isDigit : ∀ c ∈ digits, c.isDigit

/-- The parts of a numeral as JSON allows them: no zero stands before another digit. -/
structure WellFormed (n : Numeral) : Prop where
  whole : IsRun n.whole
  first : n.whole = ['0'] ∨ n.whole.head? ≠ some '0'
  fraction : ∀ digits, n.fraction = some digits → IsRun digits
  exponent : ∀ negative digits, n.exponent = some (negative, digits) → IsRun digits

def signText (negative : Bool) : List Char := if negative then ['-'] else []

def fractionText : Option (List Char) → List Char
  | none => []
  | some digits => '.' :: digits

def exponentText : Option (Bool × List Char) → List Char
  | none => []
  | some (negative, digits) => 'e' :: (if negative then '-' else '+') :: digits

/-- The text of a numeral, with a sign in every exponent. -/
def spelled (n : Numeral) : List Char :=
  signText n.negative ++ (n.whole ++ (fractionText n.fraction ++ exponentText n.exponent))

lemma isRun_toDigits (n : Nat) : IsRun (Nat.toDigits 10 n) :=
  ⟨Nat.toDigits_ne_nil, fun _ hc => Nat.isDigit_of_mem_toDigits (by decide) (by decide) hc⟩

lemma isRun_zero : IsRun ['0'] := ⟨by simp, by simp⟩

lemma head?_toDigits {n : Nat} (h : n ≠ 0) : (Nat.toDigits 10 n).head? ≠ some '0' := by
  induction n using Nat.strongRecOn with
  | ind n ih =>
    by_cases hn : n < 10
    · simp [Nat.toDigits_of_lt_base hn, h]
    · have hhead := ih (n / 10) (by omega) (by omega)
      rw [Nat.toDigits_of_base_le (by decide) (by omega)]
      cases hd : Nat.toDigits 10 (n / 10) with
      | nil => exact absurd hd Nat.toDigits_ne_nil
      | cons c digits => simpa [hd] using hhead

lemma isRun_append {digits more : List Char} (h : IsRun digits) (hm : ∀ c ∈ more, c.isDigit) :
    IsRun (digits ++ more) :=
  ⟨by simp [h.ne_nil], fun c hc => (List.mem_append.mp hc).elim (h.isDigit c) (hm c)⟩

lemma isDigit_replicate (n : Nat) : ∀ c ∈ List.replicate n '0', c.isDigit := by
  intro c hc
  rw [(List.mem_replicate.mp hc).2]
  rfl

/-- The numeral of a whole number. -/
def ofInt (i : Int) : Numeral := ⟨i < 0, Nat.toDigits 10 i.natAbs, none, none⟩

lemma wellFormed_ofInt (i : Int) : (ofInt i).WellFormed where
  whole := isRun_toDigits _
  first := by
    by_cases h : i.natAbs = 0
    · exact .inl (by rw [ofInt, h, Nat.toDigits_zero])
    · exact .inr (head?_toDigits h)
  fraction := by simp [ofInt]
  exponent := by simp [ofInt]

lemma toString_int (i : Int) : (toString i).toList = (ofInt i).spelled := by
  rw [Int.toString_eq_repr, Int.repr_eq_if]
  by_cases h : 0 ≤ i
  · have habs : i.toNat = i.natAbs := by omega
    have hneg : ¬ i < 0 := by omega
    simp [h, hneg, habs, ofInt, spelled, signText, fractionText, exponentText]
  · have habs : (-i).toNat = i.natAbs := by omega
    have hneg : i < 0 := by omega
    simp [h, hneg, habs, ofInt, spelled, signText, fractionText, exponentText]

end Numeral

namespace Magnitude

lemma significand_pos {x : Magnitude} (h : x.isZero = false) : 0 < x.significand := by
  simp only [isZero, beq_eq_false_iff_ne] at h
  omega

lemma gridPoint?_ne_zero {tie : Tie} {x : Magnitude} {place : Int} {d : Decimal}
    (hx : x.isZero = false) (h : x.gridPoint? tie place = some d) : d.digits ≠ 0 := by
  have hpos := significand_pos hx
  obtain ⟨low, value, high, hq⟩ : ∃ low value high, x.quarters = (low, value, high) := ⟨_, _, _, rfl⟩
  have hlow : 0 < low := by
    obtain rfl : x.quarters.1 = low := by rw [hq]
    simp only [quarters]
    split_ifs <;> omega
  unfold gridPoint? at h
  rw [hq] at h
  extract_lets quarter up down at h
  dsimp -zeta only at h
  extract_lets rounds below above upward at h
  have hdown : 0 < low * down := Nat.mul_pos hlow (Nat.mul_pos (tenTo_pos _) (twoTo_pos _))
  -- The interval starts above zero.
  have hzero : rounds 0 = false := by
    simp only [rounds, Nat.zero_mul]
    split_ifs <;> rw [decide_eq_false (by omega), Bool.false_and]
  split_ifs at h with hb ha
  · obtain rfl := Option.some.inj h
    intro hd
    simp only at hd
    simp [hd, hzero] at hb
  · obtain rfl := Option.some.inj h
    exact Nat.succ_ne_zero _

lemma shortest_ne_zero {tie : Tie} {x : Magnitude} (hx : x.isZero = false) :
    (x.shortest tie).digits ≠ 0 := by
  simp only [shortest, hx, Bool.false_eq_true, if_false]
  cases hfind : (List.range 18).findSome?
      fun i => x.gridPoint? tie (leadingPlace x.num x.den + 1 - (i : Nat)) with
  | none => exact Nat.ne_of_gt (Nat.mul_pos (significand_pos hx) (twoTo_pos _))
  | some d =>
    obtain ⟨i, -, hi⟩ := List.exists_of_findSome?_eq_some hfind
    exact gridPoint?_ne_zero hx hi

end Magnitude

namespace NumberStyle
open Numeral

/-- The numerals that doubles are written as: with a fraction or an exponent. -/
structure OfDouble (negative : Bool) (n : Numeral) : Prop where
  wellFormed : n.WellFormed
  negative_eq : n.negative = negative
  notWhole : n.fraction.isSome ∨ n.exponent.isSome

lemma first_of_digits {d : Nat} (hd : d ≠ 0) (k : Nat) (hk : 0 < k) (more : List Char) :
    ((Nat.toDigits 10 d).take k ++ more).head? ≠ some '0' := by
  obtain ⟨k, rfl⟩ : ∃ j, k = j + 1 := ⟨k - 1, by omega⟩
  have hhead := head?_toDigits hd
  cases hdigits : Nat.toDigits 10 d with
  | nil => exact absurd hdigits Nat.toDigits_ne_nil
  | cons c digits => simpa [hdigits] using hhead

lemma toList_zeros (n : Nat) : (zeros n).toList = List.replicate n '0' := String.toList_ofList

lemma withPoint_spelled {style : NumberStyle} {mark : Option (List Char)}
    (hstyle : style.wholeMark.toList = fractionText mark)
    (hmark : ∀ digits, mark = some digits → IsRun digits) (negative : Bool) {d : Nat} {before : Int}
    (h : d = 0 → before = 1) :
    ∃ n : Numeral, n.WellFormed ∧ n.negative = negative ∧ n.exponent = none ∧
      (n.fraction.isSome ∨ n.fraction = mark) ∧
      (style.withPoint (Nat.toDigits 10 d) before).toList = n.whole ++ fractionText n.fraction := by
  have hrun := isRun_toDigits d
  unfold withPoint
  split_ifs with hbefore hlength
  · let fraction := List.replicate (-before).toNat '0' ++ Nat.toDigits 10 d
    have hfraction : IsRun fraction := by
      refine ⟨by simp [fraction], fun c hc => ?_⟩
      exact (List.mem_append.mp hc).elim (isDigit_replicate _ c) (hrun.isDigit c)
    refine ⟨⟨negative, ['0'], some fraction, none⟩,
      ⟨isRun_zero, .inl rfl, by simpa using hfraction, by simp⟩, rfl, rfl, .inl rfl, ?_⟩
    simp [fractionText, toList_zeros, fraction]
  · let rest := List.replicate (before.toNat - (Nat.toDigits 10 d).length) '0'
    have hwhole : IsRun (Nat.toDigits 10 d ++ rest) := isRun_append hrun (isDigit_replicate _)
    have hfirst : Nat.toDigits 10 d ++ rest = ['0'] ∨ (Nat.toDigits 10 d ++ rest).head? ≠ some '0' := by
      by_cases hd : d = 0
      · left
        simp [rest, hd, h hd]
      · right
        have hhead := first_of_digits hd (Nat.toDigits 10 d).length Nat.length_toDigits_pos rest
        rwa [List.take_length] at hhead
    refine ⟨⟨negative, Nat.toDigits 10 d ++ rest, mark, none⟩,
      ⟨hwhole, hfirst, hmark, by simp⟩, rfl, rfl, .inr rfl, ?_⟩
    simp [toList_zeros, rest, hstyle]
  · have hd : d ≠ 0 := by
      intro hd
      simp [hd, h hd] at hlength
    have hlt : before.toNat < (Nat.toDigits 10 d).length := by omega
    have hwhole : IsRun ((Nat.toDigits 10 d).take before.toNat) := by
      refine ⟨?_, fun c hc => hrun.isDigit c (List.mem_of_mem_take hc)⟩
      apply List.ne_nil_of_length_pos
      rw [List.length_take]
      omega
    have hfraction : IsRun ((Nat.toDigits 10 d).drop before.toNat) := by
      refine ⟨?_, fun c hc => hrun.isDigit c (List.mem_of_mem_drop hc)⟩
      apply List.ne_nil_of_length_pos
      rw [List.length_drop]
      omega
    have hfirst := first_of_digits hd before.toNat (by omega) []
    rw [List.append_nil] at hfirst
    refine ⟨⟨negative, _, some _, none⟩,
      ⟨hwhole, .inr hfirst, by simpa using hfraction, by simp⟩, rfl, rfl, .inl rfl, ?_⟩
    simp [fractionText]

lemma withExponent_spelled (negative : Bool) (d : Nat) (exponent : Int) :
    ∃ n, OfDouble negative n ∧
      (withExponent (Nat.toDigits 10 d) exponent).toList =
        n.whole ++ (fractionText n.fraction ++ exponentText n.exponent) := by
  have hrun := isRun_toDigits d
  cases hdigits : Nat.toDigits 10 d with
  | nil => exact absurd hdigits Nat.toDigits_ne_nil
  | cons c more =>
    rw [hdigits] at hrun
    let fraction := if more.isEmpty then none else some more
    refine ⟨⟨negative, [c], fraction, some (exponent < 0, Nat.toDigits 10 exponent.natAbs)⟩,
      ⟨⟨?_, ?_, ?_, ?_⟩, rfl, .inr rfl⟩, ?_⟩
    · exact ⟨by simp, fun c' hc => hrun.isDigit c' (by simp_all)⟩
    · by_cases hc : c = '0'
      · exact .inl (by rw [hc])
      · exact .inr (by simpa using hc)
    · intro digits hf
      cases more with
      | nil => simp [fraction] at hf
      | cons c' more =>
        obtain rfl : c' :: more = digits := by simpa [fraction] using hf
        exact ⟨by simp, fun x hx => hrun.isDigit x (List.mem_cons_of_mem c hx)⟩
    · rintro negative digits ⟨⟩
      exact isRun_toDigits _
    · cases more <;> by_cases he : exponent < 0 <;>
        simp [withExponent, fraction, fractionText, exponentText, he]

lemma before_of_digits_eq_zero {tie : Tie} {size : Magnitude} (hd : (size.shortest tie).digits = 0) :
    ((Nat.toDigits 10 (size.shortest tie).digits).length : Int) + (size.shortest tie).exponent = 1 := by
  have hzero : size.isZero = true := by
    by_contra hx
    exact Magnitude.shortest_ne_zero (by simpa using hx) hd
  simp [Magnitude.shortest, hzero]

lemma magnitude_spelled (negative : Bool) (size : Magnitude) :
    ∃ n, OfDouble negative n ∧ (json.magnitude size).toList =
      n.whole ++ (fractionText n.fraction ++ exponentText n.exponent) := by
  rw [magnitude, decimal]
  split_ifs with hpositional
  · have hmark : ∀ digits, some ['0'] = some digits → IsRun digits := by simpa using isRun_zero
    obtain ⟨n, hn, hnegative, hexponent, hfraction, htext⟩ :=
      @withPoint_spelled json (some ['0']) rfl hmark negative _ _ before_of_digits_eq_zero
    have hsome : n.fraction.isSome := hfraction.elim id fun he => he ▸ rfl
    refine ⟨n, ⟨hn, hnegative, .inl hsome⟩, ?_⟩
    rw [htext, hexponent, exponentText, List.append_nil]
  · exact withExponent_spelled negative _ _

/-- A finite double is spelled with a fraction or an exponent. -/
theorem json_text_spelled (negative : Bool) (size : Magnitude) :
    ∃ n, OfDouble negative n ∧ (json.text (.finite negative size)).toList = n.spelled := by
  obtain ⟨n, hn, htext⟩ := magnitude_spelled negative size
  refine ⟨n, hn, ?_⟩
  rw [text, spelled, hn.negative_eq, String.toList_append, htext, signText]
  cases negative <;> rfl

end NumberStyle
end Retrace
