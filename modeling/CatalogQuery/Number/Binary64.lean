import CatalogQuery.Number.Power
/-!
# Binary floating point

Sixty-four-bit floating-point numbers as bit patterns. Every finite number is an integer multiple
of the smallest one, two to the power of minus 1074, so `scaled` gives an exact integer view in
which order is the order of `Int`; the infinities take the next value of that scale. Rounding
goes to the nearest number, a tie to the one with an even significand.
-/
namespace CatalogQuery

/-- A floating-point number, told apart by its bits alone. -/
structure Binary64 where
  bits : UInt64
  deriving DecidableEq, Repr, Hashable, Inhabited

namespace Binary64

/-- The smallest positive number is two to the power of minus this. -/
def scaleExponent : Nat := 1074

def infinityBits : Nat := 0x7FF0000000000000

def isNegative (x : Binary64) : Bool := pow2 63 ≤ x.bits.toNat

def magnitudeBits (x : Binary64) : Nat := x.bits.toNat % pow2 63

def isNaN (x : Binary64) : Bool := infinityBits < x.magnitudeBits
def isInfinite (x : Binary64) : Bool := x.magnitudeBits == infinityBits
def isFinite (x : Binary64) : Bool := x.magnitudeBits < infinityBits
def isZero (x : Binary64) : Bool := x.magnitudeBits == 0

def exponentField (x : Binary64) : Nat := x.magnitudeBits / pow2 52

/-- The significand with its leading bit, below two to the power of 53. -/
def significand (x : Binary64) : Nat :=
  if x.exponentField = 0 then x.magnitudeBits % pow2 52 else pow2 52 + x.magnitudeBits % pow2 52

/-- The exponent of the last bit of the significand, over the smallest exponent. -/
def unitExponent (x : Binary64) : Nat := x.exponentField - 1

/-- The magnitude as a multiple of the smallest positive number. -/
def scaledMagnitude (x : Binary64) : Nat := x.significand * pow2 x.unitExponent

/-- The value as a multiple of the smallest positive number. -/
def scaled (x : Binary64) : Int :=
  if x.isNegative then -(x.scaledMagnitude : Int) else x.scaledMagnitude

def ofMagnitude (negative : Bool) (magnitude : Nat) : Binary64 :=
  ⟨UInt64.ofNat (if negative then pow2 63 + magnitude else magnitude)⟩

/-- The magnitude bits of the number nearest to `num / den`. The step from a significand of all
ones to the next exponent is the carry of the addition. -/
def roundRatio (num den : Nat) : Nat :=
  let numScaled := num * pow2 scaleExponent
  let shift := Nat.log2 (numScaled / den) - 52
  let unit := den * pow2 shift
  let quotient := numScaled / unit
  let rest := numScaled % unit
  let nearest :=
    if unit < 2 * rest ∨ (2 * rest = unit ∧ quotient % 2 = 1) then quotient + 1 else quotient
  min (shift * pow2 52 + nearest) infinityBits

/-- The number nearest to `num / den`, with the given sign. -/
def ofRatio (negative : Bool) (num den : Nat) : Binary64 :=
  ofMagnitude negative (roundRatio num den)

def ofNat (n : Nat) : Binary64 := ofRatio false n 1

def ofInt (n : Int) : Binary64 := ofRatio (n < 0) n.natAbs 1

/-- The number nearest to a multiple of the smallest positive number. -/
def ofScaled (n : Int) : Binary64 := ofRatio (n < 0) n.natAbs (pow2 scaleExponent)

/-- The nearest number to ten to the power of `k`. -/
def powerOfTen (k : Nat) : Binary64 := ofNat (pow10 k)

def zero : Binary64 := ⟨0⟩
def infinity (negative : Bool) : Binary64 := ofMagnitude negative infinityBits

def nan : Binary64 := ofMagnitude false (infinityBits + pow2 51)

def neg (x : Binary64) : Binary64 := ofMagnitude (!x.isNegative) x.magnitudeBits

/-- The rounded product of two finite numbers. -/
def mul (x y : Binary64) : Binary64 :=
  ofRatio (x.isNegative != y.isNegative) (x.scaledMagnitude * y.scaledMagnitude)
    (pow2 (2 * scaleExponent))

/-- The rounded quotient of two finite numbers, the second not zero. -/
def div (x y : Binary64) : Binary64 :=
  ofRatio (x.isNegative != y.isNegative) x.scaledMagnitude y.scaledMagnitude

/-- The rounded sum. Two infinities of different signs have none, and a sum of zero is negative only if
both parts are. -/
def add (x y : Binary64) : Binary64 :=
  if x.isNaN || y.isNaN then nan
  else if x.isInfinite then
    if y.isInfinite && x.isNegative != y.isNegative then nan else x
  else if y.isInfinite then y
  else
    let sum := x.scaled + y.scaled
    if sum = 0 then ofMagnitude (x.isNegative && y.isNegative) 0 else ofScaled sum

def sub (x y : Binary64) : Binary64 := x.add y.neg

/-- The order of the values: nothing compares with a NaN, and both zeros are equal. -/
def compare? (x y : Binary64) : Option Ordering :=
  if x.isNaN || y.isNaN then none else some (compare x.scaled y.scaled)

def scaleInt (n : Int) : Int := n * pow2 scaleExponent

def truncate (x : Binary64) : Int := Int.tdiv x.scaled (pow2 scaleExponent)

example : ofInt 1 = ⟨0x3FF0000000000000⟩ := by decide +kernel
example : ofRatio true 1 10 = ⟨0xBFB999999999999A⟩ := by decide +kernel
example : ofInt 9007199254740993 = ofInt 9007199254740992 := by decide +kernel
example : (powerOfTen 309).isInfinite = true := by decide +kernel
example : (⟨1⟩ : Binary64).scaled = 1 := by decide +kernel
example : (ofInt 1).sub (ofInt 1) = zero := by decide +kernel
example : (infinity false).add (infinity true) = nan := by decide +kernel

end Binary64

end CatalogQuery
