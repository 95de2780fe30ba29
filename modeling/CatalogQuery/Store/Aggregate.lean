import CatalogQuery.Plan.Checked
import CatalogQuery.Store.Cell
/-!
# Aggregates

What the aggregate functions make of the values of a group. Nulls do not count. A sum is an integer as
long as all its parts are and it fits sixty-four bits with a sign. From then on it is floating-point:
every part is added to a total, and what rounding the total loses is added up beside it.
-/
namespace CatalogQuery.Cell

def present (cells : List Cell) : List Cell := cells.filter fun c => !c.isNull

/-- A floating-point sum: the rounded total, and what was lost in rounding it. -/
structure RealSum where
  total : Binary64
  lost : Binary64
  deriving DecidableEq, Repr

namespace RealSum

/-- Adds a number. The part that is smaller in magnitude is the one that loses digits. -/
def add (s : RealSum) (x : Binary64) : RealSum :=
  let total := s.total.add x
  let lost :=
    if x.magnitudeBits < s.total.magnitudeBits then (s.total.sub total).add x
    else (x.sub total).add s.total
  ⟨total, s.lost.add lost⟩

/-- An integer as a part without rounding and a small rest. -/
def parts (n : Int64) : Binary64 × Option Binary64 :=
  if n.toInt.natAbs < pow2 52 then (.ofInt n.toInt, none)
  else
    let rest := Int.tmod n.toInt (pow2 14)
    (.ofInt (n.toInt - rest), some (.ofInt rest))

def ofInteger (n : Int64) : RealSum := ⟨(parts n).1, (parts n).2.getD .zero⟩

def addInteger (s : RealSum) (n : Int64) : RealSum :=
  match parts n with
  | (x, none) => s.add x
  | (x, some rest) => (s.add x).add rest

/-- The total with what was lost, where that is a finite number. -/
def value (s : RealSum) : Binary64 := if s.lost.isFinite then s.total.add s.lost else s.total

end RealSum

inductive Sum
  | integer (n : Int64)
  /-- The mark stands where integers have overflowed and no other quantity has come since. -/
  | real (s : RealSum) (overflowed : Bool)
  deriving DecidableEq, Repr

namespace Sum

def add : Sum → Quantity → Sum
  | .integer n, .integer m =>
    match Scalar.int64? (n.toInt + m.toInt) with
    | some sum => .integer sum
    | none => .real ((RealSum.ofInteger n).addInteger m) true
  | .integer n, .real x => .real ((RealSum.ofInteger n).add x) false
  | .real s overflowed, .integer m => .real (s.addInteger m) overflowed
  | .real s _, .real x => .real (s.add x) false

def of (qs : List Quantity) : Sum := qs.foldl add (.integer 0)

def toReal : Sum → Binary64
  | .integer n => .ofInt n.toInt
  | .real s _ => s.value

end Sum

/-- A floating-point result; one that is no number is null. -/
def ofReal (x : Binary64) : Cell := if x.isNaN then .null else .real x

/-- The sum, if it does not overflow. -/
def sum? (cells : List Cell) : Option Cell :=
  let qs := (present cells).map quantity
  if qs.isEmpty then some .null
  else
    match Sum.of qs with
    | .integer n => some (.integer n)
    | .real _ true => none
    | .real s false => some (ofReal s.value)

def average (cells : List Cell) : Cell :=
  let qs := (present cells).map quantity
  let x := (Sum.of qs).toReal
  if qs.isEmpty then .null else ofReal (if x.isFinite then x.div (.ofNat qs.length) else x)

/-- The first value that no other goes before in the sense of `o`. -/
def extreme (o : Ordering) (cells : List Cell) : Cell :=
  match present cells with
  | [] => .null
  | c :: rest => rest.foldl (fun best c => if c.order best = o then c else best) c

/-- The aggregate of the values of a group; nothing when a sum overflows. -/
def aggregate? (f : AggregateFunction) (cells : List Cell) : Option Cell :=
  match f with
  | .count => some (.integer (.ofNat (present cells).length))
  | .sum => sum? cells
  | .avg => some (average cells)
  | .min => some (extreme .lt cells)
  | .max => some (extreme .gt cells)

example : sum? [.integer 1, .null, .integer 2] = some (.integer 3) := by decide +kernel
example : sum? [.integer (.ofInt maxInt64), .integer 1] = none := by decide +kernel
example : average [.integer 1, .integer 2] = .real (.ofRatio false 3 2) := by decide +kernel
example :
    sum? [.real (.powerOfTen 17), .integer 1, .real (Binary64.powerOfTen 17).neg] = some (.real (.ofInt 1)) := by
  decide +kernel

end CatalogQuery.Cell
