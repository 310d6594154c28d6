import Retrace.Number.Shortest

/-!
How a double is written. Both styles write the shortest digits; they differ in where positional
notation ends, in the mark of a whole number and in the choice between two equally near decimals.
-/

namespace Retrace

/-- A way to write doubles. `positional p` says whether a number is written without an exponent
when `p` of its digits stand before the point. -/
structure NumberStyle where
  tie : Tie
  positional : Int → Bool
  wholeMark : String

namespace NumberStyle

/-- Plain text: never an exponent, and no mark on whole numbers. -/
def plain : NumberStyle := ⟨.up, fun _ => true, ""⟩

/-- In JSON, a number of `10 ^ 16` or more or below `0.00001` has an exponent, and a whole number
ends in `.0`. -/
def json : NumberStyle := ⟨.even, fun p => -5 < p && p ≤ 16, ".0"⟩

def zeros (n : Nat) : String := String.ofList (List.replicate n '0')

/-- The digits with the point put after the first `before` places. -/
def withPoint (style : NumberStyle) (digits : List Char) (before : Int) : String :=
  if before ≤ 0 then "0." ++ zeros (-before).toNat ++ String.ofList digits
  else if (digits.length : Int) ≤ before then
    String.ofList digits ++ zeros (before.toNat - digits.length) ++ style.wholeMark
  else String.ofList (digits.take before.toNat) ++ "." ++ String.ofList (digits.drop before.toNat)

/-- The digits with the point after the first of them, and a signed exponent of ten. -/
def withExponent (digits : List Char) (exponent : Int) : String :=
  let fraction := digits.drop 1
  String.ofList (digits.take 1)
    ++ (if fraction.isEmpty then "" else "." ++ String.ofList fraction)
    ++ (if exponent < 0 then "e-" else "e+") ++ toString exponent.natAbs

def decimal (style : NumberStyle) (d : Decimal) : String :=
  let digits := Nat.toDigits 10 d.digits
  let before := (digits.length : Int) + d.exponent
  if style.positional before then style.withPoint digits before
  else withExponent digits (before - 1)

def magnitude (style : NumberStyle) (x : Magnitude) : String :=
  style.decimal (x.shortest style.tie)

/-- The text of a double; the two infinities and not-a-number are words. -/
def text (style : NumberStyle) : Binary64 → String
  | .nan => "NaN"
  | .infinite negative => if negative then "-inf" else "inf"
  | .finite negative size => (if negative then "-" else "") ++ style.magnitude size

end NumberStyle
end Retrace
