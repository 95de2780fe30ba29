import CatalogQuery.Json.Printer
import CatalogQuery.Text.Ascii
/-!
# Log entries

An entry is an event with named fields. Its line is a JSON object: the event, the severity, then the
fields sorted by name. An entry below the least severity is dropped; from errors on, entries go to
the error stream.
-/
namespace CatalogQuery

inductive Severity
  | trace
  | info
  | warn
  | error
  | fatal
  deriving DecidableEq, Repr, Inhabited

namespace Severity

def all : List Severity := [.trace, .info, .warn, .error, .fatal]

def name : Severity → String
  | .trace => "TRACE"
  | .info => "INFO"
  | .warn => "WARN"
  | .error => "ERROR"
  | .fatal => "FATAL"

def ofName? (s : String) : Option Severity := all.find? fun v => Text.sameUpToCase v.name s

def rank : Severity → Nat
  | .trace => 0
  | .info => 1
  | .warn => 2
  | .error => 3
  | .fatal => 4

def max (a b : Severity) : Severity := if a.rank ≤ b.rank then b else a

@[simp] theorem ofName?_name (v : Severity) : ofName? v.name = some v := by
  cases v <;> decide

end Severity

structure LogEntry where
  severity : Severity
  event : String
  fields : List (String × String)
  deriving DecidableEq, Repr, Inhabited

namespace LogEntry

def sortedFields (e : LogEntry) : List (String × String) :=
  e.fields.mergeSort fun a b => decide (a.1 ≤ b.1)

def toJson (e : LogEntry) : Json :=
  .obj <|
    ("event", .str e.event) :: ("severity", .str e.severity.name) ::
      e.sortedFields.map fun f => (f.1, .str f.2)

def line (e : LogEntry) : String := String.ofList (e.toJson.compact ++ ['\n'])

/-- The entry is kept when this is the least severity. -/
def isKept (least : Severity) (e : LogEntry) : Bool := least.rank ≤ e.severity.rank

def isError (e : LogEntry) : Bool := Severity.error.rank ≤ e.severity.rank

theorem sortedFields_perm (e : LogEntry) : e.sortedFields.Perm e.fields :=
  List.mergeSort_perm _ _

end LogEntry

end CatalogQuery
