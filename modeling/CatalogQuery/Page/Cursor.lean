import CatalogQuery.Statement.Param
/-!
# Cursors

Where a page starts: at the beginning, after a row with given values of the ordering keys, or after
a number of rows.
-/
namespace CatalogQuery

open Json

/-- How successive pages are located. -/
inductive CursorMode
  /-- By the ordering values of the last row; the ordering has to tell rows apart. -/
  | keyset
  /-- By a number of rows, which may skip or repeat rows when the table changes. -/
  | offset
  deriving DecidableEq, Repr, Inhabited

def CursorMode.name : CursorMode → String
  | .keyset => "keyset"
  | .offset => "offset"

inductive Cursor
  | start
  /-- The values of the last row, one to the ordering key, nulls included. -/
  | keyset (values : List Param)
  /-- The number of rows delivered. -/
  | offset (rows : UInt64)
  deriving DecidableEq, Repr, Inhabited

namespace Cursor

def toJson : Cursor → Json
  | .start => .obj [("mode", .str "start")]
  | .keyset values => .obj [("mode", .str "keyset"), ("values", .arr (values.map Param.toJson))]
  | .offset rows => .obj [("mode", .str "offset"), ("offset", .int rows.toNat)]

def ofMode (mode : String) (depth : Nat) (values offset : Except Fault (Option Tree)) :
    Except Fault Cursor :=
  match mode with
  | "start" => .ok .start
  | "keyset" => do
    match ← values with
    | some t => (Reader.list (Param.reader Reader.isVoid) depth t).map .keyset
    | none => .error .mismatch
  | "offset" => do
    match ← offset with
    | some t => (Reader.uint64 depth t).map .offset
    | none => .error .mismatch
  | _ => .error .mismatch

/-- Reads the tagged form: an object, or a list that begins with the mode. -/
def reader : Reader Cursor := fun depth t => do
  let _ ← t.value depth
  match t with
  | .arr [.str (some mode)] true => ofMode mode (depth - 1) (.ok none) (.ok none)
  | .arr [.str (some mode), payload] true =>
    if mode = "start" then .error .mismatch
    else ofMode mode (depth - 1) (.ok (some payload)) (.ok (some payload))
  | t =>
    match t.members? with
    | none => .error .mismatch
    | some members => do
      match ← once "mode" members with
      | some (.str (some mode)) =>
        ofMode mode (depth - 1) (once "values" members) (once "offset" members)
      | _ => .error .mismatch

end Cursor

end CatalogQuery
