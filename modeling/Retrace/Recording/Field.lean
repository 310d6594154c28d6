import Retrace.Json.Printer
import Retrace.Number.Numeral

/-!
Loose fields. Recorders write numbers as texts and texts as numbers, so a field takes any JSON
value, and a value it cannot use counts as missing.
-/

namespace Retrace.Field

open Json (Value Scalar)

/-- The text of a value: a string itself, a number in plain form, a container as compact JSON. -/
def text : Value → Option String
  | .scalar .null => none
  | .scalar (.string s) => some s
  | .scalar (.bool b) => some (if b then "true" else "false")
  | .scalar (.number (.double x)) => some (NumberStyle.plain.text x)
  | .scalar (.number (.whole i)) => some (toString i)
  | container => some container.merged.compact

/-- A number, or a text that holds one between blanks. -/
def number : Value → Option Binary64
  | .scalar (.number n) => some n.toDouble
  | .scalar (.string s) => Binary64.ofText? (Text.trim s.toList)
  | _ => none

def maxWhole : Nat := twoTo 64 - 1

/-- A double that is a whole number from zero up to two to the 64th, the last one counted as
`maxWhole`. -/
def wholeOfDouble : Binary64 → Option Nat
  | .finite negative size =>
    if size.isZero then some 0
    else if !negative && size.isWhole && size.floor ≤ maxWhole + 1 then
      some (min size.floor maxWhole)
    else none
  | _ => none

/-- A nonnegative whole number: exactly where it is written as one, by way of its double
otherwise. -/
def whole (value : Value) : Option Nat :=
  match value with
  | .scalar (.number (.whole (.ofNat n))) => some n
  | _ => (number value).bind wholeOfDouble

end Retrace.Field
