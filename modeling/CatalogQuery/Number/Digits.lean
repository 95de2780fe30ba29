import CatalogQuery.Number.Power
/-!
# Decimal digits

Decimal spellings of natural numbers and integers, and rounding a ratio to a number of significant
digits.
-/
namespace CatalogQuery.Number

def isDigit (c : Char) : Bool := c.isDigit

def ofDigits (cs : List Char) : Nat := Nat.ofDigitChars 10 cs 0

/-- The digits of a number, `0` for zero. -/
def digits (n : Nat) : List Char := Nat.toDigits 10 n

def digitCount (n : Nat) : Nat := (digits n).length

def paddedDigits (width n : Nat) : List Char :=
  List.replicate (width - digitCount n) '0' ++ digits n

/-- An integer: a minus sign where needed, then digits. -/
def intText (n : Int) : List Char :=
  if n < 0 then '-' :: digits n.natAbs else digits n.natAbs

theorem ofDigits_digits (n : Nat) : ofDigits (digits n) = n :=
  Nat.ofDigitChars_toDigits (by decide) (by decide)

/-- The integer `e` with `10 ^ e ≤ num / den < 10 ^ (e + 1)`, for a positive ratio. -/
def decimalExponent (num den : Nat) : Int :=
  if den ≤ num then (digitCount (num / den) : Int) - 1
  else -(digitCount ((den + num - 1) / num - 1) : Int)

/-- `num / den` over ten to the power of `e`, as a ratio. -/
def overPower (num den : Nat) (e : Int) : Nat × Nat :=
  if 0 ≤ e then (num, den * pow10 e.toNat) else (num * pow10 (-e).toNat, den)

/-- A decimal: `digits` has its point in front, so the value is `0.digits` times ten to the power
of `point`. -/
structure Decimal where
  digits : List Char
  point : Int
  deriving DecidableEq, Repr

/-- A grid value `n` times ten to the power of `e` without its last zeros. -/
def Decimal.ofGrid (n : Nat) (e : Int) : Decimal :=
  let ds := CatalogQuery.Number.digits n
  { digits := (ds.reverse.dropWhile (· == '0')).reverse, point := (ds.length : Int) + e }

/-- A positive ratio rounded to `places` significant digits, a half going up. -/
def Decimal.round (places num den : Nat) : Decimal :=
  let e := decimalExponent num den - (places : Int) + 1
  let (n, d) := overPower num den e
  .ofGrid ((2 * n + d) / (2 * d)) e

example : decimalExponent 999 10 = 1 := by decide +kernel
example : decimalExponent 1 1000 = -3 := by decide +kernel
example : decimalExponent 11 10000 = -3 := by decide +kernel
example : (Decimal.round 3 2 3).digits = ['6', '6', '7'] := by decide +kernel

end CatalogQuery.Number
