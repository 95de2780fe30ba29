import CatalogQuery.Page.Error
import CatalogQuery.Plan.Error
import CatalogQuery.Store.Error
/-!
# Failures

A failure is what a caller is told: a code and a sentence. Each kind of error becomes one.
-/
namespace CatalogQuery

structure Failure where
  code : ErrorCode
  message : String
  deriving DecidableEq, Repr, Inhabited

def Failure.display (f : Failure) : String := f.code.name ++ ": " ++ f.message

namespace PlanError

def code : PlanError → ErrorCode
  | .unknownEntity _ => .unknownEntity
  | .unknownField _ _ => .unknownField
  | .unsupportedOperation _ => .unsupportedOperation
  | .invalidFilter _ _ => .invalidFilter
  | .timeRangeRequired _ _ => .timeRangeRequired
  | .limitExceeded _ _ => .limitExceeded

def display (e : PlanError) : String :=
  "[" ++ Gravity.reject.name ++ "] " ++ e.code.name ++ ": " ++ e.message

def toFailure (e : PlanError) : Failure := ⟨e.code, e.message⟩

theorem category_code (e : PlanError) : e.code.category = .validation := by
  cases e <;> rfl

end PlanError

def TokenError.toFailure (e : TokenError) : Failure := ⟨e.code, e.message⟩

def ExecutionError.toFailure (e : ExecutionError) : Failure := ⟨e.code, e.message⟩

inductive PageError
  /-- The query does not accept the cursor. -/
  | cursor (e : TokenError)
  | execution (e : ExecutionError)
  deriving DecidableEq, Repr, Inhabited

namespace PageError

def detail? : PageError → Option String
  | .cursor _ => none
  | .execution e => some e.detail

def display : PageError → String
  | .cursor e => e.message
  | .execution e => e.display

def toFailure : PageError → Failure
  | .cursor e => e.toFailure
  | .execution e => e.toFailure

end PageError

end CatalogQuery
