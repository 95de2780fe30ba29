import CatalogQuery.Log.Entry
import CatalogQuery.Report.Failure
/-!
# The life of a request

A request is received, then validated, compiled and executed, and ends in success or failure. A page
request has its compiled query already and goes from being received straight to execution. A request
keeps the log entries it has written; a step that is not allowed changes nothing but the log.
-/
namespace CatalogQuery

inductive RequestState
  | received
  | validated
  | compiled
  | executing
  | succeeded
  | failed
  deriving DecidableEq, Repr, Inhabited

namespace RequestState

def all : List RequestState := [.received, .validated, .compiled, .executing, .succeeded, .failed]

def name : RequestState → String
  | .received => "RECEIVED"
  | .validated => "VALIDATED"
  | .compiled => "COMPILED"
  | .executing => "EXECUTING"
  | .succeeded => "SUCCEEDED"
  | .failed => "FAILED"

def ofName? (s : String) : Option RequestState := all.find? (·.name == s)

def isTerminal : RequestState → Bool
  | .succeeded | .failed => true
  | _ => false

def canAdvance : RequestState → RequestState → Bool
  | .received, .validated | .received, .executing | .validated, .compiled
  | .compiled, .executing | .executing, .succeeded => true
  | s, .failed => !s.isTerminal
  | _, _ => false

end RequestState

structure Request where
  id : String
  state : RequestState
  log : List LogEntry
  deriving DecidableEq, Repr, Inhabited

namespace Request

def receive (id : String) : Request where
  id := id
  state := .received
  log := [⟨.trace, "REQUEST_RECEIVED", [("request_id", id)]⟩]

def note (r : Request) (e : LogEntry) : Request := { r with log := r.log ++ [e] }

def advance (r : Request) (next : RequestState) : Request :=
  let fields := [("from", r.state.name), ("request_id", r.id), ("to", next.name)]
  if r.state.canAdvance next then
    { r.note ⟨.trace, "REQUEST_STATE", fields⟩ with state := next }
  else r.note ⟨.warn, "REQUEST_STATE_REJECTED", fields⟩

def decimal (n : Nat) : String := String.ofList (Number.digits n)

def succeed (r : Request) (entity : String) (rows : Nat) (mode : String) (elapsedMs : UInt64) :
    Request :=
  if r.state.canAdvance .succeeded then
    (r.advance .succeeded).note
      ⟨.info, "QUERY_EXECUTED",
        [("elapsed_ms", decimal elapsedMs.toNat), ("entity", entity), ("pagination_mode", mode),
          ("request_id", r.id), ("rows", decimal rows)]⟩
  else r.advance .succeeded

/-- The severity and event of a failure: only what the backend does is an error. -/
def failureEvent : ErrorCategory → Severity × String
  | .backend => (.error, "EXECUTION_FAILED")
  | .validation => (.info, "PLAN_REJECTED")
  | .pagination => (.info, "TOKEN_REJECTED")

/-- Ends in failure; the detail goes to the log alone. -/
def fail (r : Request) (f : Failure) (detail : Option String) (elapsedMs : UInt64) : Request :=
  if r.state.canAdvance .failed then
    let (severity, event) := failureEvent f.code.category
    (r.advance .failed).note
      ⟨severity, event,
        [("code", f.code.name), ("elapsed_ms", decimal elapsedMs.toNat), ("message", f.message),
          ("request_id", r.id)] ++ (detail.map fun d => ("detail", d)).toList⟩
  else r.advance .failed

/-- The caller goes away; a request that has not ended is logged as abandoned. -/
def leave (r : Request) : Request :=
  if r.state.isTerminal then r
  else r.note ⟨.warn, "REQUEST_ABANDONED", [("request_id", r.id), ("state", r.state.name)]⟩

end Request

end CatalogQuery
