import Retrace.Number.Binary64
import Retrace.Text.Blank

/-!
Decimal numerals in plain text and the double nearest to each of them.
-/

namespace Retrace

/-- The parts of a decimal numeral. The digit lists hold the characters `0` to `9` only. -/
structure Numeral where
  negative : Bool
  whole : List Char
  fraction : Option (List Char)
  /-- Whether the exponent is negative, and its digits. -/
  exponent : Option (Bool × List Char)
  deriving DecidableEq, Repr

namespace Numeral

def digitsValue (digits : List Char) : Nat := Nat.ofDigitChars 10 digits 0

/-- The written exponent, zero where there is none. -/
def writtenExponent (n : Numeral) : Int :=
  match n.exponent with
  | none => 0
  | some (true, digits) => -(digitsValue digits : Int)
  | some (false, digits) => digitsValue digits

/-- The double nearest to a numeral. A first digit far outside the range of doubles decides alone,
so that no huge power of ten is computed. -/
def nearest (n : Numeral) : Binary64 :=
  let fraction := n.fraction.getD []
  let digits := digitsValue (n.whole ++ fraction)
  let exponent := n.writtenExponent - fraction.length
  let before := (Nat.toDigits 10 digits).length + exponent
  if digits = 0 then .zero n.negative
  else if 310 < before then .infinite n.negative
  else if before < -330 then .zero n.negative
  else .ofRatio n.negative (digits * tenTo exponent.toNat) (tenTo (-exponent).toNat)

/-- The exponent part of a plain numeral: nothing, or a mark and at least one digit. -/
def exponentPart? : List Char → Option (Option (Bool × List Char))
  | [] => some none
  | c :: rest =>
    if c == 'e' || c == 'E' then
      let (negative, digits) := match rest with
        | '-' :: digits => (true, digits)
        | '+' :: digits => (false, digits)
        | digits => (false, digits)
      if !digits.isEmpty && digits.all Char.isDigit then some (some (negative, digits)) else none
    else none

/-- A plain unsigned numeral: digits before or after the point, or on both sides. -/
def ofBody? (negative : Bool) (body : List Char) : Option Numeral :=
  let whole := body.takeWhile Char.isDigit
  match body.dropWhile Char.isDigit with
  | '.' :: rest =>
    let fraction := rest.takeWhile Char.isDigit
    if whole.isEmpty && fraction.isEmpty then none
    else (exponentPart? (rest.dropWhile Char.isDigit)).map (⟨negative, whole, some fraction, ·⟩)
  | rest =>
    if whole.isEmpty then none
    else (exponentPart? rest).map (⟨negative, whole, none, ·⟩)

end Numeral

namespace Binary64

/-- The unsigned rest of a numeric text: a word for infinity or not-a-number in any case, or a
plain numeral. -/
def ofUnsigned? (negative : Bool) (body : List Char) : Option Binary64 :=
  let word := String.ofList (body.map Char.toLower)
  if word = "inf" || word = "infinity" then some (.infinite negative)
  else if word = "nan" then some .nan
  else (Numeral.ofBody? negative body).map Numeral.nearest

/-- Reads a numeric text that may have a sign. -/
def ofText? : List Char → Option Binary64
  | '-' :: body => ofUnsigned? true body
  | '+' :: body => ofUnsigned? false body
  | body => ofUnsigned? false body

end Binary64
end Retrace
