import CatalogQuery.Store.Cell
import CatalogQuery.Text.Ascii
import CatalogQuery.Time.Clock
/-!
# Tables

A table is a list of rows under the names of its columns. A name in a statement stands for the column of
that name, up to the case of ASCII letters. Where no column has the name it can still stand for the
number of the row or for a truth value; and a few names stand for a constant whatever the columns are.
-/
namespace CatalogQuery

/-- How values are taken that are compared with those of a column. -/
inductive Affinity
  /-- As they are. -/
  | plain
  /-- Numbers as their texts. -/
  | text
  /-- Texts of numbers as these numbers. -/
  | number
  deriving DecidableEq, Repr, Inhabited

def Affinity.apply : Affinity → Cell → Cell
  | .plain, c => c
  | .text, c => c.asText
  | .number, c => c.asNumber

structure Table where
  name : String
  columns : List String
  rows : List (List Cell)
  /-- No statement on the table ever ends, and its rows have no numbers. -/
  slow : Bool := false
  /-- The affinities of the columns; those that are missing are plain. -/
  affinities : List Affinity := []
  /-- The time at which it is read, in seconds since the first of January 1970. -/
  readAt : Int := 0
  deriving DecidableEq, Repr, Inhabited

structure StoredRow where
  number : Nat
  cells : List Cell
  deriving DecidableEq, Repr, Inhabited

inductive Source
  | column (index : Nat)
  | rowNumber
  | constant (c : Cell)
  deriving DecidableEq, Repr

def Source.value (row : StoredRow) : Source → Cell
  | .column i => row.cells.getD i .null
  | .rowNumber => .integer (.ofNat row.number)
  | .constant c => c

namespace Table

/-- The rows, which are numbered from one. -/
def numberedRows (t : Table) : List StoredRow :=
  t.rows.zipIdx.map fun (cells, i) => ⟨i + 1, cells⟩

def columnIndex? (t : Table) (name : String) : Option Nat :=
  t.columns.findIdx? fun c => Text.sameUpToCase c name

/-- The value that a name stands for in front of every column: null, or the date or time. -/
def constant? (t : Table) (name : String) : Option Cell :=
  if Text.sameUpToCase name "null" then some .null
  else if Text.sameUpToCase name "current_date" then some (.text (Time.dateText t.readAt))
  else if Text.sameUpToCase name "current_time" then some (.text (Time.timeText t.readAt))
  else if Text.sameUpToCase name "current_timestamp" then
    some (.text (Time.dateText t.readAt ++ " " ++ Time.timeText t.readAt))
  else none

/-- The name stands for the number of a row where it is no column. -/
def isRowNumber (name : String) : Bool :=
  ["rowid", "oid", "_rowid_"].any fun n => Text.sameUpToCase n name

def truthValue? (name : String) : Option Cell :=
  if Text.sameUpToCase name "true" then some (.integer 1)
  else if Text.sameUpToCase name "false" then some (.integer 0)
  else none

def source? (t : Table) (name : String) : Option Source :=
  match t.constant? name, t.columnIndex? name with
  | some c, _ => some (.constant c)
  | none, some i => some (.column i)
  | none, none =>
    if isRowNumber name then if t.slow then none else some .rowNumber
    else (truthValue? name).map .constant

def value (t : Table) (row : StoredRow) (name : String) : Cell :=
  ((t.source? name).map (Source.value row)).getD .null

def affinity (t : Table) (name : String) : Affinity :=
  match t.source? name with
  | some (.column i) => t.affinities.getD i .plain
  | some .rowNumber => .number
  | _ => .plain

end Table

end CatalogQuery
