import CatalogQuery.Number.Extended
import CatalogQuery.Number.Shortest
/-!
# Layouts of decimals

How a decimal is spelled: positional between two exponents, otherwise with one digit before the
point and an exponent. The two layouts in use are that of JSON texts, with shortest digits, and
that of stored text, with fifteen significant digits.
-/
namespace CatalogQuery.Number

structure Layout where
  /-- A positional spelling needs a point greater than this … -/
  above : Int
  /-- … and at most this. -/
  upTo : Int
  /-- One digit stands after the point even before an exponent. -/
  fractionAlways : Bool
  /-- The least number of digits in an exponent. -/
  exponentDigits : Nat
  deriving DecidableEq, Repr

/-- Digits with the point after the first `point` of them; a side without digits has a zero. -/
def positional (d : Decimal) : List Char :=
  if d.point ≤ 0 then
    '0' :: '.' :: (List.replicate (-d.point).toNat '0' ++ d.digits)
  else
    let n := d.point.toNat
    let whole := d.digits.take n ++ List.replicate (n - d.digits.length) '0'
    let fraction := d.digits.drop n
    whole ++ '.' :: (if fraction.isEmpty then ['0'] else fraction)

/-- One digit, the other digits after a point, and a signed exponent. -/
def exponential (l : Layout) (d : Decimal) : List Char :=
  let e := d.point - 1
  let fraction := d.digits.drop 1
  d.digits.take 1 ++
    (if fraction.isEmpty then (if l.fractionAlways then ['.', '0'] else []) else '.' :: fraction) ++
    'e' :: (if e < 0 then '-' else '+') :: paddedDigits l.exponentDigits e.natAbs

def Layout.spell (l : Layout) (d : Decimal) : List Char :=
  if l.above < d.point ∧ d.point ≤ l.upTo then positional d else exponential l d

/-- JSON texts: positional from `0.00001` to below ten to the power of sixteen. -/
def Layout.json : Layout := ⟨-5, 16, false, 1⟩

/-- Stored text: positional from `0.0001` to below ten to the power of fifteen. -/
def Layout.stored : Layout := ⟨-4, 15, true, 2⟩

/-- A finite number as a JSON text: its shortest digits, with a sign also on zero. -/
def jsonText (x : Binary64) : List Char :=
  let body := if x.isZero then ['0', '.', '0'] else Layout.json.spell (shortest x)
  if x.isNegative then '-' :: body else body

/-- Fifteen significant digits of a finite number other than zero, rounded from the eighteen or
nineteen that are worked out. -/
def storedDecimal (x : Binary64) : Decimal :=
  let (n, e) := (Extended.ofBinary64 x).leadingDigits
  let d := Decimal.round 15 n 1
  { d with point := d.point + e }

/-- A number as stored text: fifteen significant digits, no sign on zero. -/
def storedText (x : Binary64) : List Char :=
  if x.isZero then ['0', '.', '0']
  else
    let body :=
      if x.isFinite then Layout.stored.spell (storedDecimal x) else ['I', 'n', 'f']
    if x.isNegative then '-' :: body else body

example : jsonText (.ofInt 1) = "1.0".toList := by decide +kernel
example : jsonText (.powerOfTen 15) = "1000000000000000.0".toList := by decide +kernel
example : jsonText (.powerOfTen 16) = "1e+16".toList := by decide +kernel
example : jsonText (.ofRatio true 15 10000000) = "-1.5e-6".toList := by decide +kernel
example : jsonText (.ofMagnitude true 0) = "-0.0".toList := by decide +kernel
example : storedText (.powerOfTen 15) = "1.0e+15".toList := by decide +kernel
example : storedText (.ofRatio false 1 3) = "0.333333333333333".toList := by decide +kernel

end CatalogQuery.Number
