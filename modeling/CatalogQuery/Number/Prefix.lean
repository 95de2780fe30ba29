import CatalogQuery.Number.Digits
import CatalogQuery.Number.Extended
/-!
# Numbers in texts

A text is read as a number as far as it looks like one: white space, a sign, digits, a fraction and an
exponent. The value is made from the leading digits, as many as fit sixty-four bits, and from the power
of ten that they are to be multiplied by.
-/
namespace CatalogQuery.Number

/-- White space before a number in a stored text. -/
def isStoredSpace (c : Char) : Bool := c == ' ' || ('\t' ≤ c && c ≤ '\r')

/-- A number as far as it goes: sign, digits, fraction and exponent, and what follows. -/
structure NumberPrefix where
  negative : Bool
  whole : List Char
  /-- The digits after a point, if a point is there. -/
  fraction : Option (List Char)
  /-- The exponent, if it has digits. -/
  exponent : Option Int
  rest : List Char
  deriving DecidableEq, Repr

def takeSign : List Char → Bool × List Char
  | '-' :: rest => (true, rest)
  | '+' :: rest => (false, rest)
  | rest => (false, rest)

/-- Once an exponent has come this far, more digits do not make it larger. -/
def exponentBound : Nat := 10000

def boundedExponent (ds : List Char) : Nat :=
  ds.foldl (fun e c => if e < exponentBound then e * 10 + ofDigits [c] else exponentBound) 0

def takeExponent (cs : List Char) : Option Int × List Char :=
  match cs with
  | c :: rest =>
    if c = 'e' ∨ c = 'E' then
      let (negative, afterSign) := takeSign rest
      match afterSign.takeWhile isDigit with
      | [] => (none, cs)
      | ds =>
        let n : Int := boundedExponent ds
        (some (if negative then -n else n), afterSign.dropWhile isDigit)
    else (none, cs)
  | [] => (none, cs)

/-- The number at the beginning of a text, after white space. -/
def numberPrefix (cs : List Char) : NumberPrefix :=
  let (negative, cs) := takeSign (cs.dropWhile isStoredSpace)
  let whole := cs.takeWhile isDigit
  let (fraction, cs) :=
    match cs.dropWhile isDigit with
    | '.' :: rest => (some (rest.takeWhile isDigit), rest.dropWhile isDigit)
    | rest => (none, rest)
  let (exponent, rest) :=
    if whole.isEmpty && (fraction.getD []).isEmpty then (none, cs) else takeExponent cs
  { negative, whole, fraction, exponent, rest }

/-- Takes digits while sixty-four bits have room for one more: the number with them behind it, and
how many digits are left. -/
def accumulate (n : Nat) : List Char → Nat × Nat
  | [] => (n, 0)
  | c :: cs =>
    if n < (pow2 64 - 10) / 10 then accumulate (n * 10 + ofDigits [c]) cs else (n, cs.length + 1)

/-- Moves up to `count` factors of ten from a power of ten into the number in front of it. -/
def fillDigits : Nat → Nat × Int → Nat × Int
  | 0, p => p
  | count + 1, (n, e) =>
    if 0 < e ∧ n < (pow2 64 - 1) / 10 then fillDigits count (n * 10, e - 1)
    else if e < 0 ∧ n % 10 = 0 then fillDigits count (n / 10, e + 1)
    else (n, e)

namespace NumberPrefix

/-- There is at least one digit before or after the point. -/
def hasDigits (p : NumberPrefix) : Bool := !p.whole.isEmpty || !(p.fraction.getD []).isEmpty

def isAll (p : NumberPrefix) : Bool := p.hasDigits && p.rest.all isStoredSpace

/-- There is neither a fraction nor an exponent. -/
def isWhole (p : NumberPrefix) : Bool := p.fraction.isNone && p.exponent.isNone

def real (p : NumberPrefix) : Binary64 :=
  let fraction := p.fraction.getD []
  let (n, left) := accumulate 0 p.whole
  let (n, fractionLeft) := accumulate n fraction
  let e := p.exponent.getD 0 + left - (fraction.length - fractionLeft : Nat)
  if n = 0 then .ofMagnitude p.negative 0
  else
    let (n, e) := fillDigits 20 (n, e)
    ((Extended.ofNat n).scaleTen e).toBinary64 p.negative

/-- The digits before the point with their sign. -/
def wholePart (p : NumberPrefix) : Int :=
  let n : Int := ofDigits p.whole
  if p.negative then -n else n

/-- The whole part, kept within sixty-four bits with a sign. -/
def integer (p : NumberPrefix) : Int := max minInt64 (min maxInt64 p.wholePart)

end NumberPrefix

example : (numberPrefix "12.5xyz".toList).real = .ofRatio false 25 2 := by decide +kernel
example : (numberPrefix "-".toList).real = .ofMagnitude true 0 := by decide +kernel
example : (numberPrefix " 1e2".toList).real = .ofInt 100 := by decide +kernel
example : (numberPrefix "1e400".toList).real = .infinity false := by decide +kernel

end CatalogQuery.Number
