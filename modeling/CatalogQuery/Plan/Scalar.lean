import CatalogQuery.Catalog.Vocabulary
import CatalogQuery.Json.Basic
import CatalogQuery.Time.Spelling
/-!
# Scalars

A value a filter compares with, read from JSON as the kind of its field demands.
-/
namespace CatalogQuery

inductive Scalar
  | text (s : String)
  | integer (n : Int64)
  | real (x : Binary64)
  | bool (b : Bool)
  | timestamp (t : Time.Timestamp)
  deriving DecidableEq, Repr

namespace Scalar

/-- The integers of sixty-four bits with a sign. -/
def int64? (n : Int) : Option Int64 :=
  if minInt64 ≤ n ∧ n ≤ maxInt64 then some (.ofInt n) else none

/-- An integer that does not fit sixty-four bits with a sign is rounded. -/
def ofInt (n : Int) : Scalar :=
  match int64? n with
  | some i => .integer i
  | none => .real (.ofInt n)

def ofJson? : ValueKind → Json → Option Scalar
  | .string, .str s => some (.text s)
  | .number, .int n => some (ofInt n)
  | .number, .real x => some (.real x)
  | .boolean, .bool b => some (.bool b)
  | .timestamp, .str s => (Time.Timestamp.parse? s).map .timestamp
  | _, _ => none

/-- The order of two scalars of one variant; integers are rounded before they are compared with
floating-point numbers. -/
def compare? : Scalar → Scalar → Option Ordering
  | .text a, .text b => some (compare a b)
  | .integer a, .integer b => some (compare a.toInt b.toInt)
  | .integer a, .real b => (Binary64.ofInt a.toInt).compare? b
  | .real a, .integer b => a.compare? (.ofInt b.toInt)
  | .real a, .real b => a.compare? b
  | .bool a, .bool b => some (compare a.toNat b.toNat)
  | .timestamp a, .timestamp b => some (a.order b)
  | _, _ => none

end Scalar

end CatalogQuery
