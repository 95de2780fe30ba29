import CatalogQuery.Json.Access
import CatalogQuery.Json.Record
import CatalogQuery.Store.Basic
/-!
# Snapshots

The tables of a store as JSON: a list of tables, each with its name, its columns and its rows. A
value keeps the class of its JSON type; truth values are the numbers one and zero, and a byte string
is an object with its hexadecimal digits.
-/
namespace CatalogQuery

open Json

def Bytes.ofHex? : List Char → Option (List UInt8)
  | [] => some []
  | a :: b :: rest => do
    let high ← Text.hexValue? a
    let low ← Text.hexValue? b
    let bytes ← Bytes.ofHex? rest
    some (.ofNat (high * 16 + low) :: bytes)
  | [_] => none

def Cell.ofJson? : Json → Option Cell
  | .null => some .null
  | .bool b => some (.integer (if b then 1 else 0))
  | .int n =>
    match Scalar.int64? n with
    | some i => some (.integer i)
    | none => some (.real (.ofInt n))
  | .real x => some (.real x)
  | .str s => some (.text s)
  | .arr _ => none
  | .obj members => do
    let digits ← ((Json.obj members).get "blob").asText?
    (Bytes.ofHex? digits.toList).map .blob

def Cell.reader : Reader Cell := fun depth t => do
  match Cell.ofJson? (← t.value depth) with
  | some c => .ok c
  | none => .error .mismatch

def Table.rowsReader : Reader (List (List Cell)) := Reader.list (Reader.list Cell.reader)

def Table.record : Record Table :=
  (fun name columns rows slow => { name, columns, rows, slow }) <$> .withDefault "name" Reader.string ""
    <*> .withDefault "columns" (Reader.list Reader.string) []
    <*> .withDefault "rows" Table.rowsReader []
    <*> .withDefault "slow" Reader.bool false

def Store.reader : Reader Store := fun depth t =>
  (Reader.list Table.record.reader depth t).map fun tables => { tables }

end CatalogQuery
