import CatalogQuery.Report.Code
import CatalogQuery.Number.Digits
/-!
# Execution errors

A statement can run out of time or fail. The caller gets one fixed sentence for each; the detail is
for the log only.
-/
namespace CatalogQuery

inductive ExecutionFault
  | timeout
  | failure
  deriving DecidableEq, Repr, Inhabited

structure ExecutionError where
  fault : ExecutionFault
  detail : String
  deriving DecidableEq, Repr, Inhabited

namespace ExecutionError

def timeout (detail : String) : ExecutionError := ⟨.timeout, detail⟩

def failure (detail : String) : ExecutionError := ⟨.failure, detail⟩

def noConnection : ExecutionError := timeout "connection pool acquire timed out"

/-- The statement did not finish in the given milliseconds. -/
def outOfTime (ms : UInt64) : ExecutionError :=
  timeout ("statement exceeded " ++ String.ofList (Number.digits ms.toNat) ++ " ms")

/-- A value of a result column cannot be read as the kind of its column. -/
def undecodable (column reason : String) : ExecutionError :=
  failure ("decoding column '" ++ column ++ "': " ++ reason)

def code (e : ExecutionError) : ErrorCode :=
  match e.fault with
  | .timeout => .executionTimeout
  | .failure => .executionFailure

def message (e : ExecutionError) : String :=
  match e.fault with
  | .timeout => "Query did not complete within the time limit"
  | .failure => "Query execution failed"

def display (e : ExecutionError) : String := "[ERROR] " ++ e.code.name ++ ": " ++ e.message

end ExecutionError

end CatalogQuery
