/-!
# Error codes

Every way a request can fail, as its caller sees it. The category of a code says who can do something
about it: the caller corrects the plan, sends the plan again, or tries again later.
-/
namespace CatalogQuery

inductive ErrorCategory
  /-- The plan has to be corrected. -/
  | validation
  /-- The plan has to be sent again. -/
  | pagination
  /-- The same request may succeed later. -/
  | backend
  deriving DecidableEq, Repr, Inhabited

inductive ErrorCode
  | unknownEntity
  | unknownField
  | unsupportedOperation
  | invalidFilter
  | timeRangeRequired
  | limitExceeded
  | invalidToken
  | expiredToken
  | staleQuery
  | executionTimeout
  | executionFailure
  deriving DecidableEq, Repr, Inhabited

def ErrorCategory.name : ErrorCategory → String
  | .validation => "Validation"
  | .pagination => "Pagination"
  | .backend => "Backend"

namespace ErrorCode

def all : List ErrorCode :=
  [.unknownEntity, .unknownField, .unsupportedOperation, .invalidFilter, .timeRangeRequired,
    .limitExceeded, .invalidToken, .expiredToken, .staleQuery, .executionTimeout, .executionFailure]

def name : ErrorCode → String
  | .unknownEntity => "UNKNOWN_ENTITY"
  | .unknownField => "UNKNOWN_FIELD"
  | .unsupportedOperation => "UNSUPPORTED_OPERATION"
  | .invalidFilter => "INVALID_FILTER"
  | .timeRangeRequired => "TIME_RANGE_REQUIRED"
  | .limitExceeded => "LIMIT_EXCEEDED"
  | .invalidToken => "INVALID_TOKEN"
  | .expiredToken => "EXPIRED_TOKEN"
  | .staleQuery => "STALE_QUERY"
  | .executionTimeout => "EXECUTION_TIMEOUT"
  | .executionFailure => "EXECUTION_FAILURE"

def ofName? (s : String) : Option ErrorCode := all.find? (·.name == s)

def category : ErrorCode → ErrorCategory
  | .invalidToken | .expiredToken | .staleQuery => .pagination
  | .executionTimeout | .executionFailure => .backend
  | _ => .validation

/-- The same request may succeed when it is sent again. -/
def isRecoverable (c : ErrorCode) : Bool := c.category == .backend

def httpStatus : ErrorCode → Nat
  | .expiredToken | .staleQuery => 410
  | .executionTimeout => 504
  | .executionFailure => 502
  | _ => 400

theorem mem_all (c : ErrorCode) : c ∈ all := by cases c <;> decide

@[simp] theorem ofName?_name (c : ErrorCode) : ofName? c.name = some c := by
  cases c <;> decide

end ErrorCode

end CatalogQuery
