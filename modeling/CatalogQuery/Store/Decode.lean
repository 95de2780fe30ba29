import CatalogQuery.Statement.Compiled
import CatalogQuery.Store.Cell
import CatalogQuery.Store.Error
/-!
# Records from stored values

A stored value becomes JSON by the kind of its column, whatever its class: strings and timestamps are
its text, numbers are read from it, and a boolean is whether it is not zero. Only a byte string that
is no text cannot be shown as one.
-/
namespace CatalogQuery

open Json

/-- The value for a column of a kind, if it can be shown. -/
def Cell.toJson? (kind : ValueKind) (c : Cell) : Option Json :=
  match kind, c with
  | _, .null => some .null
  | .string, .blob bytes | .timestamp, .blob bytes => (Bytes.toString? bytes).map .str
  | .string, c | .timestamp, c => some (.str (String.ofList c.chars))
  | .number, .integer n => some (.int n.toInt)
  | .number, .real x => some (.ofReal x)
  | .number, c => some (.ofReal c.leadingNumber.real)
  | .boolean, c => some (.bool c.isTrue)

/-- The record of a result row: the values under the names of their columns. -/
def decodeRow : List OutputColumn → List Cell → Except ExecutionError Row
  | column :: columns, c :: cells =>
    match c.toJson? column.kind with
    | none => .error (.undecodable column.name "invalid utf-8 sequence")
    | some v => do
      let rest ← decodeRow columns cells
      .ok (if (rest.lookup column.name).isSome then rest else insertMember column.name v rest)
  | _, _ => .ok []

/-- The records of all rows; one that cannot be shown fails them all. -/
def decodeRows (columns : List OutputColumn) :
    List (List Cell) → Except ExecutionError (List Row)
  | [] => .ok []
  | cells :: rest => do
    let row ← decodeRow columns cells
    let rows ← decodeRows columns rest
    .ok (row :: rows)

end CatalogQuery
