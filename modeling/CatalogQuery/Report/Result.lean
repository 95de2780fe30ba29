import CatalogQuery.Catalog.File
import CatalogQuery.Report.Failure
import CatalogQuery.Statement.Compiled
/-!
# Results

The answer to a request: a page of records with what is needed to go on, or a failure.
-/
namespace CatalogQuery

open Json

/-- The records of a page, named for the operation that made them. -/
inductive QueryData
  | rows (records : List Row)
  | aggregates (records : List Row)
  deriving Repr, BEq

namespace QueryData

def ofOperation : Operation → List Row → QueryData
  | .list, records => .rows records
  | .aggregate, records => .aggregates records

def records : QueryData → List Row
  | .rows rs | .aggregates rs => rs

@[simp] theorem records_ofOperation (o : Operation) (rs : List Row) :
    (ofOperation o rs).records = rs := by
  cases o <;> rfl

def key : QueryData → String
  | .rows _ => "rows"
  | .aggregates _ => "aggregates"

def toJson (d : QueryData) : Json := .obj [(d.key, .arr (d.records.map .obj))]

end QueryData

structure ResultMetadata where
  executionTimeMs : UInt64
  rowsReturned : Nat
  mode : CursorMode
  requestId : Option String
  deriving DecidableEq, Repr

def ResultMetadata.toJson (m : ResultMetadata) : Json :=
  .obj <|
    [("executionTimeMs", .int m.executionTimeMs.toNat), ("rowsReturned", .int m.rowsReturned),
     ("paginationMode", .str m.mode.name)] ++
    optionMember "requestId" .str m.requestId

structure PaginationInfo where
  /-- Stands for the next page, where there is one. -/
  queryToken : Option String
  hasMore : Bool
  currentPage : UInt32
  deriving DecidableEq, Repr

def PaginationInfo.toJson (p : PaginationInfo) : Json :=
  .obj <|
    optionMember "queryToken" .str p.queryToken ++
    [("hasMore", .bool p.hasMore), ("currentPage", .int p.currentPage.toNat)]

inductive QueryResult
  | success (data : QueryData) (metadata : ResultMetadata) (pagination : PaginationInfo)
  | error (failure : Failure) (requestId : Option String)
  deriving Repr, BEq

namespace QueryResult

def isSuccess : QueryResult → Bool
  | .success _ _ _ => true
  | .error _ _ => false

def errorCode? : QueryResult → Option ErrorCode
  | .success _ _ _ => none
  | .error f _ => some f.code

def data? : QueryResult → Option QueryData
  | .success d _ _ => some d
  | .error _ _ => none

def metadata? : QueryResult → Option ResultMetadata
  | .success _ m _ => some m
  | .error _ _ => none

def pagination? : QueryResult → Option PaginationInfo
  | .success _ _ p => some p
  | .error _ _ => none

def httpStatus (r : QueryResult) : Nat :=
  match r.errorCode? with
  | none => 200
  | some c => c.httpStatus

def toJson : QueryResult → Json
  | .success d m p =>
    .obj [("status", .str "success"), ("data", d.toJson), ("metadata", m.toJson),
      ("pagination", p.toJson)]
  | .error f requestId =>
    .obj <|
      [("status", .str "error"), ("errorCode", .str f.code.name), ("message", .str f.message)] ++
      optionMember "requestId" .str requestId

def text (r : QueryResult) : String := r.toJson.text

end QueryResult

end CatalogQuery
