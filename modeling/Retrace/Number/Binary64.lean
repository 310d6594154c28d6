/-!
Double precision numbers as exact values. A finite size is a significand times a power of two, so
comparison, rounding and arithmetic are statements about natural numbers, and no machine number
occurs anywhere.
-/

namespace Retrace

def twoTo (n : Nat) : Nat := Nat.pow 2 n

def tenTo (n : Nat) : Nat := Nat.pow 10 n

theorem twoTo_pos (n : Nat) : 0 < twoTo n := Nat.pow_pos (by decide)

theorem tenTo_pos (n : Nat) : 0 < tenTo n := Nat.pow_pos (by decide)

/-- The number `significand * 2 ^ exponent`. -/
structure Magnitude where
  significand : Nat
  exponent : Int
  deriving DecidableEq, Repr, Inhabited

namespace Magnitude

/-- The exponent of the smallest positive double. -/
def minExponent : Int := -1074

/-- The exponent of the largest finite doubles. -/
def maxExponent : Int := 971

/-- A normal double has a significand of at least this, and every double one below its double. -/
def hiddenBit : Nat := twoTo 52

def zero : Magnitude := ⟨0, minExponent⟩

def isZero (x : Magnitude) : Bool := x.significand == 0

/-- The numerator of the value over `x.den`. -/
def num (x : Magnitude) : Nat := x.significand * twoTo x.exponent.toNat

/-- A power of two, one for a whole number of nonnegative exponent. -/
def den (x : Magnitude) : Nat := twoTo (-x.exponent).toNat

theorem den_pos (x : Magnitude) : 0 < x.den := twoTo_pos _

/-- The quotient rounded to a whole number, a half to the even neighbour. -/
def divHalfEven (num den : Nat) : Nat :=
  let q := num / den
  let r := num % den
  if 2 * r < den then q
  else if den < 2 * r then q + 1
  else q + q % 2

/-- The exponent of the last binary place that a double near `num / den` keeps. -/
def placeOf (num den : Nat) : Int :=
  let k : Int := (num.log2 : Int) - den.log2
  let k := if den * twoTo k.toNat ≤ num * twoTo (-k).toNat then k else k - 1
  max (k - 52) minExponent

/-- The double nearest to `num / den`, ties to the even significand; none when it is too large. -/
def ofRatio (num den : Nat) : Option Magnitude :=
  if num = 0 then some zero
  else
    let e := placeOf num den
    let m := divHalfEven (num * twoTo (-e).toNat) (den * twoTo e.toNat)
    let x : Magnitude := if m = 2 * hiddenBit then ⟨hiddenBit, e + 1⟩ else ⟨m, e⟩
    if x.exponent ≤ maxExponent then some x else none

def ofNat (n : Nat) : Option Magnitude := ofRatio n 1

def mul (x y : Magnitude) : Option Magnitude := ofRatio (x.num * y.num) (x.den * y.den)

/-- The rounded quotient by a positive number. -/
def div (x y : Magnitude) : Option Magnitude := ofRatio (x.num * y.den) (x.den * y.num)

/-- Whether the value is a whole number. -/
def isWhole (x : Magnitude) : Bool := x.num % x.den == 0

/-- The whole part of the value. -/
def floor (x : Magnitude) : Nat := x.num / x.den

end Magnitude

/-- A double precision number. All the not-a-numbers are one. -/
inductive Binary64 where
  | nan
  | infinite (negative : Bool)
  | finite (negative : Bool) (size : Magnitude)
  deriving DecidableEq, Repr, Inhabited

namespace Binary64

def zero (negative : Bool) : Binary64 := .finite negative .zero

/-- The double nearest to `num / den` with the given sign. -/
def ofRatio (negative : Bool) (num den : Nat) : Binary64 :=
  match Magnitude.ofRatio num den with
  | some size => .finite negative size
  | none => .infinite negative

def ofInt (i : Int) : Binary64 := ofRatio (i < 0) i.natAbs 1

def isFinite : Binary64 → Bool
  | .finite .. => true
  | _ => false

end Binary64
end Retrace
