import CatalogQuery.Number.Binary64
import CatalogQuery.Number.Digits
/-!
# Shortest decimals

The shortest decimal that reads back as a given floating-point number. The reals that round to a
number form an interval whose ends belong to it when the significand is even. A grid of decimals
that has a point in the interval has one among the two neighbours of the number on that grid, so
testing the grids of one, two and up to seventeen digits finds the shortest; of two hits the nearer
is taken, and of two equally near ones the even one.
-/
namespace CatalogQuery.Number

/-- The reals that round to a number, each bound times four in the scale of `Binary64.scaled`. -/
structure RoundingInterval where
  low : Nat
  value : Nat
  high : Nat
  closed : Bool
  deriving DecidableEq, Repr

/-- Below a power of two the neighbour is half as far as above it. -/
def RoundingInterval.of (x : Binary64) : RoundingInterval :=
  let unit := pow2 x.unitExponent
  let below := if x.significand = pow2 52 ∧ 0 < x.unitExponent then unit else 2 * unit
  let value := 4 * x.scaledMagnitude
  { low := value - below, value, high := value + 2 * unit, closed := x.significand % 2 = 0 }

/-- `num / den` lies in the interval. -/
def RoundingInterval.holds (i : RoundingInterval) (num den : Nat) : Bool :=
  if i.closed then i.low * den ≤ num && num ≤ i.high * den
  else i.low * den < num && num < i.high * den

/-- Four times the scale of `Binary64.scaled`. -/
def intervalScale : Nat := 4 * pow2 Binary64.scaleExponent

/-- The grid point `n` times ten to the power of `e`, in the scale of the interval. -/
def gridPoint (n : Nat) (e : Int) : Nat × Nat :=
  if 0 ≤ e then (n * pow10 e.toNat * intervalScale, 1) else (n * intervalScale, pow10 (-e).toNat)

/-- The better of the two neighbours on the grid of `10 ^ e`, if one reads back. -/
def nearestOnGrid? (i : RoundingInterval) (e : Int) : Option Nat :=
  let (num, den) := overPower i.value intervalScale e
  let below := num / den
  let rest := num % den
  let hits (n : Nat) := let p := gridPoint n e; i.holds p.1 p.2
  match hits below, hits (below + 1) with
  | true, true =>
    if 2 * rest < den ∨ (2 * rest = den ∧ below % 2 = 0) then some below else some (below + 1)
  | true, false => some below
  | false, true => some (below + 1)
  | false, false => none

/-- Tries `count` grids, each ten times finer than the one before. -/
def shortestFrom (i : RoundingInterval) (e : Int) : Nat → Decimal
  | 0 => .ofGrid (overPower i.value intervalScale e).1 e
  | count + 1 =>
    match nearestOnGrid? i e with
    | some n => .ofGrid n e
    | none => shortestFrom i (e - 1) count

/-- The shortest decimal of a finite number other than zero, without its sign. -/
def shortest (x : Binary64) : Decimal :=
  let i := RoundingInterval.of x
  shortestFrom i (decimalExponent i.value intervalScale) 17

example : shortest ⟨0x3FB999999999999A⟩ = ⟨['1'], 0⟩ := by decide +kernel
example : shortest ⟨1⟩ = ⟨['5'], -323⟩ := by decide +kernel
example : shortest ⟨0x4340000000000000⟩ = ⟨"9007199254740992".toList, 16⟩ := by decide +kernel

end CatalogQuery.Number
