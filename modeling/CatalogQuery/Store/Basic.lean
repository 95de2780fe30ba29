import CatalogQuery.Store.Decode
import CatalogQuery.Store.Schema
import CatalogQuery.Store.Select
/-!
# Stores

A store is a list of tables with a number of connections, some of which may be in use elsewhere. A
backend is all that an engine asks of a store: what a statement brings. It is a function, so that an
engine can be considered with any answers.
-/
namespace CatalogQuery

/-- What running a statement brings: records for the given columns, or an error. -/
abbrev Backend := Statement Param → List OutputColumn → Except ExecutionError (List Row)

structure Store where
  tables : List Table := []
  connections : Nat := 1
  /-- The connections in use elsewhere. -/
  held : Nat := 0
  readOnly : Bool := false
  /-- The file of the store holds a database. -/
  readable : Bool := true
  deriving DecidableEq, Repr, Inhabited

namespace Store

def table? (s : Store) (name : String) : Option Table :=
  s.tables.find? fun t => Text.sameUpToCase t.name name

def isFree (s : Store) : Bool := s.held < s.connections

/-- Takes a connection in place of the one taken before, or gives that back where none is free. -/
def hold (s : Store) : Store := { s with held := if s.isFree then 1 else 0 }

/-- Runs a statement at a time, within a time limit. No statement ends in no time. -/
def fetch (s : Store) (now : Int) (timeoutMs : UInt64) : Backend := fun statement columns =>
  if !s.isFree then .error .noConnection
  else if !s.readable then .error (.failure "file is not a database")
  else if timeoutMs = 0 then .error (.outOfTime timeoutMs)
  else
    match Schema.find? s.tables statement.table with
    | none => .error (.failure ("no such table: " ++ statement.table))
    | some t =>
      match (statement.map Cell.ofParam).select { t with readAt := now } with
      | .error f => .error (.failure f.message)
      | .ok rows =>
        if t.slow || timeoutMs.toNat ≤ statement.preparationMs then .error (.outOfTime timeoutMs)
        else decodeRows columns rows

/-- Changes the rows of a table; nothing if the table is missing or cannot be written. -/
def changeRows? (s : Store) (name : String)
    (f : Table → Option (List (List Cell))) : Option Store := do
  if s.readOnly || !s.isFree then none
  let t ← s.table? name
  if t.slow then none
  let rows ← f t
  some { s with
    tables := s.tables.map fun u =>
      if Text.sameUpToCase u.name name then { u with rows } else u }

/-- Adds rows, each with a value for every column. -/
def insert? (s : Store) (name : String) (rows : List (List Cell)) : Option Store :=
  s.changeRows? name fun t =>
    if rows.all (·.length == t.columns.length) then some (t.rows ++ rows) else none

def clear? (s : Store) (name : String) : Option Store := s.changeRows? name fun _ => some []

end Store

end CatalogQuery
