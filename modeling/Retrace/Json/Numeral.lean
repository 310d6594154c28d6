import Retrace.Json.Literal
import Retrace.Number.Numeral

/-!
Numbers in JSON text. Digits are gathered into 64 bits as long as they fit, and the rest is one rounded step
by a power of ten, so a long numeral need not get the double nearest to it.
-/

namespace Retrace.Json.Numeral

open Literal (Step)

/-- Where the spelling of a number breaks off. -/
structure Break where
  offset : Nat
  /-- Whether the text ends there. -/
  atEnd : Bool

/-- The break as reported by a reader that wants the number. -/
def Break.fault (b : Break) : Fault :=
  .after b.offset (if b.atEnd then .endInValue else .invalidNumber)

/-- The break as reported where the number is only passed. -/
def Break.skipFault (b : Break) : Fault := .after b.offset .invalidNumber

/-- A break at the next character, or at the end. -/
def breakAt (rest : List Char) (offset : Nat) : Break :=
  if rest.isEmpty then ⟨offset, true⟩ else ⟨offset + 1, false⟩

def digitRun (text : List Char) (offset : Nat) : Step (List Char) :=
  let run := text.takeWhile Char.isDigit
  ⟨run, text.dropWhile Char.isDigit, offset + run.length⟩

/-- The digits before the point: no zero stands before another digit. -/
def wholePart (text : List Char) (offset : Nat) : Except Break (Step (List Char)) :=
  match text with
  | '0' :: rest =>
    if (rest.head?.map Char.isDigit).getD false then .error (breakAt rest (offset + 1))
    else .ok ⟨['0'], rest, offset + 1⟩
  | _ =>
    let run := digitRun text offset
    if run.value.isEmpty then .error (breakAt text offset) else .ok run

/-- The digits after the point, if there is one. -/
def fractionPart (text : List Char) (offset : Nat) : Except Break (Step (Option (List Char))) :=
  match text with
  | '.' :: rest =>
    let run := digitRun rest (offset + 1)
    if run.value.isEmpty then .error (breakAt rest (offset + 1))
    else .ok ⟨some run.value, run.rest, run.offset⟩
  | _ => .ok ⟨none, text, offset⟩

def exponentDigits (negative : Bool) (text : List Char) (offset : Nat) :
    Except Break (Step (Option (Bool × List Char))) :=
  let run := digitRun text offset
  if run.value.isEmpty then .error (breakAt text offset)
  else .ok ⟨some (negative, run.value), run.rest, run.offset⟩

def exponentPart (text : List Char) (offset : Nat) :
    Except Break (Step (Option (Bool × List Char))) :=
  match text with
  | c :: rest =>
    if c == 'e' || c == 'E' then
      match rest with
      | '-' :: rest => exponentDigits true rest (offset + 2)
      | '+' :: rest => exponentDigits false rest (offset + 2)
      | rest => exponentDigits false rest (offset + 1)
    else .ok ⟨none, text, offset⟩
  | [] => .ok ⟨none, text, offset⟩

/-- Reads a numeral without its sign. -/
def readUnsigned (negative : Bool) (text : List Char) (offset : Nat) :
    Except Break (Step Numeral) := do
  let whole ← wholePart text offset
  let fraction ← fractionPart whole.rest whole.offset
  let exponent ← exponentPart fraction.rest fraction.offset
  return ⟨⟨negative, whole.value, fraction.value, exponent.value⟩, exponent.rest, exponent.offset⟩

/-- Reads a numeral with or without a minus. -/
def read (text : List Char) (offset : Nat) : Except Break (Step Numeral) :=
  match text with
  | '-' :: rest => readUnsigned true rest (offset + 1)
  | _ => readUnsigned false text offset

theorem digitRun_length (text : List Char) (offset : Nat) :
    (digitRun text offset).value.length + (digitRun text offset).rest.length = text.length := by
  have h := congrArg List.length (List.takeWhile_append_dropWhile (p := Char.isDigit) (l := text))
  simpa only [digitRun, List.length_append] using h

theorem wholePart_length {text : List Char} {offset : Nat} {step : Step (List Char)}
    (h : wholePart text offset = .ok step) : step.rest.length < text.length := by
  unfold wholePart at h
  split at h
  · split at h
    · cases h
    · injection h with h
      subst h
      simp
  · have := digitRun_length text offset
    dsimp only at h
    split at h
    · cases h
    · rename_i hne
      injection h with h
      subst h
      have : (digitRun text offset).value.length ≠ 0 := by
        simpa [List.isEmpty_iff] using hne
      omega

theorem fractionPart_length {text : List Char} {offset : Nat} {step : Step (Option (List Char))}
    (h : fractionPart text offset = .ok step) : step.rest.length ≤ text.length := by
  unfold fractionPart at h
  split at h
  · rename_i rest
    have := digitRun_length rest (offset + 1)
    dsimp only at h
    split at h
    · cases h
    · injection h with h
      subst h
      simp only [List.length_cons]
      omega
  · injection h with h
    subst h
    exact Nat.le_refl _

theorem exponentDigits_length {negative : Bool} {text : List Char} {offset : Nat}
    {step : Step (Option (Bool × List Char))}
    (h : exponentDigits negative text offset = .ok step) : step.rest.length ≤ text.length := by
  have := digitRun_length text offset
  unfold exponentDigits at h
  dsimp only at h
  split at h
  · cases h
  · injection h with h
    subst h
    simp only
    omega

theorem exponentPart_length {text : List Char} {offset : Nat}
    {step : Step (Option (Bool × List Char))}
    (h : exponentPart text offset = .ok step) : step.rest.length ≤ text.length := by
  unfold exponentPart at h
  split at h
  · split at h
    · split at h
      all_goals
        have := exponentDigits_length h
        simp only [List.length_cons] at *
        omega
    · injection h with h
      subst h
      exact Nat.le_refl _
  · injection h with h
    subst h
    exact Nat.le_refl _

theorem readUnsigned_length {negative : Bool} {text : List Char} {offset : Nat}
    {step : Step Numeral}
    (h : readUnsigned negative text offset = .ok step) : step.rest.length < text.length := by
  unfold readUnsigned at h
  cases hw : wholePart text offset with
  | error => simp [hw, bind, Except.bind] at h
  | ok whole =>
    cases hf : fractionPart whole.rest whole.offset with
    | error => simp [hw, hf, bind, Except.bind] at h
    | ok fraction =>
      cases he : exponentPart fraction.rest fraction.offset with
      | error => simp [hw, hf, he, bind, Except.bind] at h
      | ok exponent =>
        simp only [hw, hf, he, bind, Except.bind] at h
        injection h with h
        subst h
        have := wholePart_length hw
        have := fractionPart_length hf
        have := exponentPart_length he
        simp only
        omega

theorem read_length {text : List Char} {offset : Nat} {step : Step Numeral}
    (h : read text offset = .ok step) : step.rest.length < text.length := by
  unfold read at h
  split at h
  · have := readUnsigned_length h
    simp only [List.length_cons]
    omega
  · exact readUnsigned_length h

/-- Digits gathered into 64 bits, and the power of ten they are to be scaled with. -/
structure Gathered where
  significand : Nat
  exponent : Int
  /-- Whether a digit was left out. -/
  full : Bool

/-- The number with one more digit, if it fits 64 bits. -/
def withDigit? (significand : Nat) (digit : Char) : Option Nat :=
  let n := significand * 10 + (digit.toNat - '0'.toNat)
  if n < twoTo 64 then some n else none

/-- One more digit before the point. From the first one that does not fit, each raises the power
of ten. -/
def Gathered.addWhole (g : Gathered) (digit : Char) : Gathered :=
  if g.full then { g with exponent := g.exponent + 1 }
  else match withDigit? g.significand digit with
    | some n => { g with significand := n }
    | none => { g with exponent := g.exponent + 1, full := true }

/-- One more digit after the point. From the first one that does not fit, all are left out. -/
def Gathered.addFraction (g : Gathered) (digit : Char) : Gathered :=
  if g.full then g
  else match withDigit? g.significand digit with
    | some n => { g with significand := n, exponent := g.exponent - 1 }
    | none => { g with full := true }

def gatherWhole (digits : List Char) : Gathered := digits.foldl .addWhole ⟨0, 0, false⟩

/-- All the digits of a numeral, with the written exponent. -/
def gather (n : Numeral) : Gathered :=
  let g := (n.fraction.getD []).foldl .addFraction { gatherWhole n.whole with full := false }
  { g with exponent := g.exponent + n.writtenExponent }

def largestPower : Nat := 308

/-- Scales by a power of ten in steps of at most `largestPower`; none when the result is too
large. -/
def scale (x : Magnitude) (exponent : Int) : Option Magnitude :=
  if exponent.natAbs ≤ largestPower then do
    let power ← Magnitude.ofNat (tenTo exponent.natAbs)
    if 0 ≤ exponent then x.mul power else x.div power
  else if x.isZero then some x
  else if 0 ≤ exponent then none
  else do
    let power ← Magnitude.ofNat (tenTo largestPower)
    let smaller ← x.div power
    scale smaller (exponent + largestPower)
termination_by exponent.natAbs
decreasing_by
  simp only [largestPower] at *
  omega

/-- The double a numeral with a fraction, an exponent or too many digits stands for. -/
def double? (n : Numeral) : Option Binary64 := do
  let g := gather n
  let significand ← Magnitude.ofNat g.significand
  let size ← scale significand g.exponent
  return .finite n.negative size

/-- The number a numeral stands for; none when it is out of range. -/
def value? (n : Numeral) : Option Number :=
  let g := gatherWhole n.whole
  if n.fraction.isSome || n.exponent.isSome || g.full then (double? n).map .double
  else if n.negative then
    if 0 < g.significand && g.significand ≤ twoTo 63 then some (.whole (-(g.significand : Int)))
    else (Magnitude.ofNat g.significand).map fun size => .double (.finite true size)
  else some (.whole g.significand)

/-- How many of the digits of an exponent are read before the exponent passes 32 bits. -/
def readExponentDigits (value : Nat) : List Char → Nat
  | [] => 0
  | c :: rest =>
    let next := value * 10 + (c.toNat - '0'.toNat)
    if next < twoTo 31 then readExponentDigits next rest + 1 else 1

/-- Where a numeral that ends at `stop` is found to be out of range. -/
def rangeOffset (n : Numeral) (stop : Nat) : Nat :=
  match n.exponent with
  | none => stop
  | some (_, digits) => stop - digits.length + readExponentDigits 0 digits

/-- The number of a numeral that ends at `stop`. -/
def number (n : Numeral) (stop : Nat) : Except Fault Number :=
  match value? n with
  | some number => .ok number
  | none => .error (.after (rangeOffset n stop) .numberOutOfRange)

end Retrace.Json.Numeral
