import CatalogQuery.Number.Binary64
import CatalogQuery.Number.Digits
/-!
# Number literals

The value of a JSON number literal. Without fraction and exponent it is an integer where it fits
sixty-four bits, unsigned or with a minus sign. Otherwise it is a floating-point number made in two
roundings: the first digits that fit sixty-four unsigned bits are rounded, and the result is
multiplied or divided by a rounded power of ten. Other digits only move the point.
-/
namespace CatalogQuery.Number

/-- The parts of a literal; each list of digits that is present has at least one. -/
structure Literal where
  negative : Bool
  whole : List Char
  fraction : Option (List Char)
  exponent : Option (Bool × List Char)
  deriving DecidableEq, Repr

inductive LiteralValue
  | integer (n : Int)
  | real (x : Binary64)
  deriving DecidableEq, Repr

/-- One more than the greatest significand. -/
def significandLimit : Nat := pow2 64

/-- Appends digits to a significand while it stays below the limit, and returns those left over. -/
def absorb (significand : Nat) : List Char → Nat × List Char
  | [] => (significand, [])
  | c :: cs =>
    let next := significand * 10 + ofDigits [c]
    if next < significandLimit then absorb next cs else (significand, c :: cs)

/-- The greatest power of ten that is a floating-point number. -/
def powerLimit : Nat := 308

/-- Multiplies by a power of ten; nothing if the result is infinite. -/
def scaleUp? (x : Binary64) (power : Nat) : Option Binary64 :=
  if power ≤ powerLimit then
    let y := x.mul (.powerOfTen power)
    if y.isInfinite then none else some y
  else if x.isZero then some x else none

/-- Divides by a power of ten in steps of the greatest one. -/
def scaleDown (x : Binary64) (power : Nat) : Nat → Binary64
  | 0 => x
  | steps + 1 =>
    if power ≤ powerLimit then x.div (.powerOfTen power)
    else if x.isZero then x
    else scaleDown (x.div (.powerOfTen powerLimit)) (power - powerLimit) steps

/-- A significand times a power of ten, rounded in two steps. -/
def ofParts? (negative : Bool) (significand : Nat) (exponent : Int) : Option Binary64 :=
  let x := Binary64.ofNat significand
  let y? :=
    if 0 ≤ exponent then scaleUp? x exponent.toNat
    else some (scaleDown x exponent.natAbs (exponent.natAbs / powerLimit + 1))
  y?.map fun y => if negative then y.neg else y

/-- One more than the greatest exponent that is taken as written. -/
def exponentLimit : Nat := pow2 31

/-- The floating-point value of a literal; nothing if it would be infinite. -/
def Literal.real? (l : Literal) : Option Binary64 :=
  let (s₁, restWhole) := absorb 0 l.whole
  let fraction := l.fraction.getD []
  let (s₂, restFraction) := absorb s₁ fraction
  let point : Int := (restWhole.length : Int) - ((fraction.length - restFraction.length : Nat) : Int)
  match l.exponent with
  | none => ofParts? l.negative s₂ point
  | some (negative, ds) =>
    let e := ofDigits ds
    if e < exponentLimit then
      ofParts? l.negative s₂ (if negative then point - e else point + e)
    else if s₂ = 0 ∨ negative then some (.ofMagnitude l.negative 0)
    else none

/-- Reading gives up inside the exponent of a number that is too large: the exponent is beyond its
limit before its last digit. -/
def Literal.stopsInside (l : Literal) : Bool :=
  match l.exponent with
  | some (false, ds) => exponentLimit ≤ ofDigits ds.dropLast && l.real?.isNone
  | _ => false

/-- The value of a literal; nothing if it is too large. Minus zero is a floating-point number. -/
def Literal.value? (l : Literal) : Option LiteralValue :=
  if l.fraction.isNone ∧ l.exponent.isNone then
    let n := ofDigits l.whole
    if l.negative then
      if 0 < n ∧ n ≤ pow2 63 then some (.integer (-n)) else l.real?.map .real
    else if n < significandLimit then some (.integer n) else l.real?.map .real
  else l.real?.map .real

example : (Literal.mk true ['0'] none none).value? = some (.real (.ofMagnitude true 0)) := by
  decide +kernel
example : (Literal.mk false ['1'] none (some (false, ['4', '0', '0']))).value? = none := by
  decide +kernel
example : (Literal.mk false ['5'] none (some (true, ['3', '2', '4']))).value? =
    some (.real ⟨1⟩) := by decide +kernel

end CatalogQuery.Number
