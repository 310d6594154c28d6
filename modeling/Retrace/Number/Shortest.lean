import Retrace.Number.Binary64

/-!
The decimal with the fewest digits that still rounds back to a double: on the grids of one, two, ... digits
the first that has a point in the interval of the double, and of its points the nearest.
-/

namespace Retrace

/-- The number `digits * 10 ^ exponent`. -/
structure Decimal where
  digits : Nat
  exponent : Int
  deriving DecidableEq, Repr, Inhabited

/-- Which of two equally near decimals is taken. -/
inductive Tie where
  | up
  | even
  deriving DecidableEq, Repr

namespace Magnitude

/-- Where a positive `num / den` starts: its first digit stands at `10 ^ leadingPlace`. -/
def leadingPlace (num den : Nat) : Int :=
  if den ≤ num then (Nat.toDigits 10 (num / den)).length - 1
  else -(Nat.toDigits 10 ((den + num - 1) / num - 1)).length

/-- The interval that rounds to a double, in quarters of its last place. Below a power of two the doubles are
twice as dense. -/
def quarters (x : Magnitude) : Nat × Nat × Nat :=
  let below := if x.significand = hiddenBit ∧ minExponent < x.exponent then 1 else 2
  (4 * x.significand - below, 4 * x.significand, 4 * x.significand + 2)

/-- The point nearest to `x` of the grid of multiples of `10 ^ place` that rounds to `x`, if any. -/
def gridPoint? (tie : Tie) (x : Magnitude) (place : Int) : Option Decimal :=
  let quarter := x.exponent - 2
  let up := tenTo place.toNat * twoTo (-quarter).toNat
  let down := tenTo (-place).toNat * twoTo quarter.toNat
  let (low, value, high) := x.quarters
  let rounds (d : Nat) : Bool :=
    if x.significand % 2 = 0 then low * down ≤ d * up && d * up ≤ high * down
    else low * down < d * up && d * up < high * down
  let below := value * down / up
  let above := below + 1
  let upward : Bool :=
    let rest := 2 * (value * down - below * up)
    match tie with
    | .up => up ≤ rest
    | .even => up < rest || (rest == up && below % 2 == 1)
  if rounds below && !(rounds above && upward) then some ⟨below, place⟩
  else if rounds above then some ⟨above, place⟩
  else none

/-- The shortest decimal that rounds to `x`. The search starts at the next power of ten, which may do so. -/
def shortest (tie : Tie) (x : Magnitude) : Decimal :=
  if x.isZero then ⟨0, 0⟩
  else
    let top := leadingPlace x.num x.den + 1
    ((List.range 18).findSome? fun i => x.gridPoint? tie (top - (i : Nat))).getD ⟨x.num, 0⟩

end Magnitude
end Retrace
