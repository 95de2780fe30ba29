import CatalogQuery.Number.Power
/-!
# Overflow

What becomes of a sum or a difference that its type cannot hold is settled when the program is built. A
build that checks breaks off there; one that does not check goes on with the low bits.
-/
namespace CatalogQuery

inductive Overflow
  | stops
  | wraps
  deriving DecidableEq, Repr, Inhabited

namespace Overflow

/-- What was calculated in the low bits, given whether the result fits them. -/
def result? {α : Type} (o : Overflow) (fits : Bool) (x : α) : Option α :=
  match o, fits with
  | .stops, false => none
  | _, _ => some x

@[simp] theorem result?_true {α : Type} (o : Overflow) (x : α) : o.result? true x = some x := by
  cases o <;> rfl

theorem result?_eq_some_iff {α : Type} {o : Overflow} {fits : Bool} {x y : α} :
    o.result? fits x = some y ↔ (o = .stops → fits = true) ∧ x = y := by
  cases o <;> cases fits <;> simp [result?]

/-- The difference of two numbers is one of sixty-four bits with a sign. -/
def subFits (a b : Int64) : Bool := (a - b).toInt == a.toInt - b.toInt

theorem subFits_of_bounds {a b : Int64} (hlow : minInt64 ≤ a.toInt - b.toInt)
    (hhigh : a.toInt - b.toInt ≤ maxInt64) : subFits a b = true := by
  rw [minInt64] at hlow
  rw [maxInt64] at hhigh
  rw [subFits, beq_iff_eq, Int64.toInt_sub]
  exact Int.bmod_eq_of_le (by omega) (by omega)

end Overflow

end CatalogQuery
