import CatalogQuery.Statement.Basic
import CatalogQuery.Store.Pattern
/-!
# Truth of conditions

Conditions have three truth values; a comparison with null is unknown, and a row is selected when its
conditions are true.
-/
namespace CatalogQuery

abbrev Truth := Option Bool

namespace Truth

def unknown : Truth := none

def and : Truth → Truth → Truth
  | some false, _ | _, some false => some false
  | some true, some true => some true
  | _, _ => none

def or : Truth → Truth → Truth
  | some true, _ | _, some true => some true
  | some false, some false => some false
  | _, _ => none

def all (ts : List Truth) : Truth := ts.foldr Truth.and (some true)

def any (ts : List Truth) : Truth := ts.foldr Truth.or (some false)

theorem and_eq_true {a b : Truth} : a.and b = some true ↔ a = some true ∧ b = some true := by
  rcases a with _ | _ | _ <;> rcases b with _ | _ | _ <;> simp [and]

theorem or_eq_true {a b : Truth} : a.or b = some true ↔ a = some true ∨ b = some true := by
  rcases a with _ | _ | _ <;> rcases b with _ | _ | _ <;> simp [or]

end Truth

def Comparison.holds : Comparison → Ordering → Bool
  | .eq, o => o == .eq
  | .neq, o => o != .eq
  | .gt, o => o == .gt
  | .gte, o => o != .lt
  | .lt, o => o == .lt
  | .lte, o => o != .gt

namespace Cell

def compareBy (op : Comparison) (a b : Cell) : Truth :=
  if a.isNull || b.isNull then Truth.unknown else some (op.holds (a.order b))

end Cell

def Condition.truth (value : String → Cell) : Condition Cell → Truth
  | .compare column op v => (value column).compareBy op v
  | .isIn column vs => Truth.any (vs.map fun v => (value column).compareBy .eq v)
  | .like column pattern => (value column).like? pattern
  | .between column low high =>
    ((value column).compareBy .gte low).and ((value column).compareBy .lte high)

def KeyTest.truth (value : Term → Cell) : KeyTest Cell → Truth
  | .isNull key => some (value key).isNull
  | .isNotNull key => some (!(value key).isNull)
  | .equal key v => (value key).compareBy .eq v
  | .above key v => (value key).compareBy .gt v
  | .below key v => (value key).compareBy .lt v
  | .belowOrNull key v => ((value key).compareBy .lt v).or (some (value key).isNull)

/-- The truth of a keyset predicate: one of its branches holds. -/
def keysetTruth (value : Term → Cell) (branches : List (List (KeyTest Cell))) : Truth :=
  Truth.any (branches.map fun branch => Truth.all (branch.map (KeyTest.truth value)))

end CatalogQuery
