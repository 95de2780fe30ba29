import CatalogQuery.Number.Binary64
/-!
# Extended precision

Numbers of sixty-four significant bits and any exponent, without a sign. Between powers of ten and
powers of two a number goes by steps: it is multiplied by ten, by its tenth power or by its hundredth,
or by the inverse of one of these, and every step rounds to the nearest number, a tie to an even
significand. So the last bits can differ from those of the exact product.
-/
namespace CatalogQuery

/-- The number `significand` times two to the power of `exponent`. -/
structure Extended where
  significand : Nat
  exponent : Int
  deriving DecidableEq, Repr, Inhabited

namespace Extended

/-- `num / den` over two to the power of `e`, as a ratio. -/
def overPower (num den : Nat) (e : Int) : Nat × Nat :=
  if 0 ≤ e then (num, den * pow2 e.toNat) else (num * pow2 (-e).toNat, den)

/-- The number nearest to a positive ratio. The carry to a significand of sixty-five bits makes a
power of two, which the next product brings back to sixty-four. -/
def ofRatio (num den : Nat) : Extended :=
  let guess : Int := (Nat.log2 num : Int) - Nat.log2 den - 63
  let first := overPower num den guess
  let e := if first.1 / first.2 < pow2 63 then guess - 1 else guess
  let (n, d) := overPower num den e
  let quotient := n / d
  let rest := n % d
  { significand :=
      if d < 2 * rest ∨ (2 * rest = d ∧ quotient % 2 = 1) then quotient + 1 else quotient,
    exponent := e }

def ofNat (n : Nat) : Extended := ⟨n, 0⟩

def ofBinary64 (x : Binary64) : Extended :=
  ⟨x.significand, (x.unitExponent : Int) - Binary64.scaleExponent⟩

def mul (x y : Extended) : Extended :=
  let p := ofRatio (x.significand * y.significand) 1
  { p with exponent := p.exponent + x.exponent + y.exponent }

def powerOfTen (k : Int) : Extended :=
  if 0 ≤ k then ofRatio (pow10 k.toNat) 1 else ofRatio 1 (pow10 (-k).toNat)

def lt (x y : Extended) : Bool :=
  let least := min x.exponent y.exponent
  x.significand * pow2 (x.exponent - least).toNat < y.significand * pow2 (y.exponent - least).toNat

def floor (x : Extended) : Nat :=
  if 0 ≤ x.exponent then x.significand * pow2 x.exponent.toNat
  else x.significand / pow2 (-x.exponent).toNat

/-- The floating-point number nearest to it, with a sign. -/
def toBinary64 (negative : Bool) (x : Extended) : Binary64 :=
  if 0 ≤ x.exponent then .ofRatio negative (x.significand * pow2 x.exponent.toNat) 1
  else .ofRatio negative x.significand (pow2 (-x.exponent).toNat)

/-- The number times ten to the power of `e`, the large steps first. -/
def scaleTen (x : Extended) (e : Int) : Extended :=
  let steps (count : Nat) (k : Int) (x : Extended) : Extended :=
    Nat.repeat (mul · (powerOfTen (if e < 0 then -k else k))) count x
  let n := e.natAbs
  steps (n % 10) 1 (steps (n % 100 / 10) 10 (steps (n / 100) 100 x))

/-- Multiplies by ten to the power of `k` while the test holds, at most `bound` times; the second
part says by which power of ten the number was changed. -/
def scaleWhile (test : Extended → Bool) (k : Int) : Nat → Extended × Int → Extended × Int
  | 0, p => p
  | bound + 1, (x, e) =>
    if test x then scaleWhile test k bound (x.mul (powerOfTen k), e + k) else (x, e)

/-- More steps of one size than a floating-point number takes. -/
def stepBound : Nat := 16

/-- The number as an integer of eighteen or nineteen digits times a power of ten; what is left over
is dropped. -/
def leadingDigits (x : Extended) : Nat × Int :=
  let below (k : Int) (x : Extended) : Bool := x.lt (powerOfTen k)
  let above (k : Int) (x : Extended) : Bool := !x.lt (powerOfTen k)
  let (x, e) :=
    if below 19 x then
      scaleWhile (below 17) 1 stepBound <|
        scaleWhile (below 7) 10 stepBound (scaleWhile (below (-97)) 100 stepBound (x, 0))
    else
      scaleWhile (above 19) (-1) stepBound <|
        scaleWhile (above 29) (-10) stepBound (scaleWhile (above 119) (-100) stepBound (x, 0))
  (x.floor, -e)

example : powerOfTen 1 = ⟨0xA000000000000000, -60⟩ := by decide +kernel
example : powerOfTen (-1) = ⟨0xCCCCCCCCCCCCCCCD, -67⟩ := by decide +kernel
example : ((ofNat 15).scaleTen (-1)).toBinary64 false = .ofRatio false 3 2 := by decide +kernel
example : leadingDigits (ofNat 1) = (100000000000000000, -17) := by decide +kernel

end Extended

end CatalogQuery
