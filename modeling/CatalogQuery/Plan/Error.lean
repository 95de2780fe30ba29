import CatalogQuery.Catalog.Error
import CatalogQuery.Plan.Checked
import CatalogQuery.Number.Digits
/-!
# Plan errors

Why a plan is rejected. Each cause has its wording here, once.
-/
namespace CatalogQuery

inductive JsonType
  | null
  | boolean
  | number
  | string
  | array
  | object
  deriving DecidableEq, Repr

def Json.type : Json → JsonType
  | .null => .null
  | .bool _ => .boolean
  | .int _ | .real _ => .number
  | .str _ => .string
  | .arr _ => .array
  | .obj _ => .object

def JsonType.name : JsonType → String
  | .null => "null"
  | .boolean => "boolean"
  | .number => "number"
  | .string => "string"
  | .array => "array"
  | .object => "object"

inductive OperationFault
  | unknownOperation (name : String)
  | listWithAggregations
  | listWithGroups
  | noAggregations
  | unknownFunction (name : String)
  | stated (reason : String)
  deriving DecidableEq, Repr

def maxListValues : Nat := 500

/-- Why something said about a field, a label or the time range is not valid. -/
inductive FilterFault
  | unknownOperator (name : String)
  | operatorNotAllowed (operator : Operator)
  | emptyList
  | longList
  | patternNotText
  | notTwoBounds
  | boundsReversed
  | kindMismatch (kind : ValueKind) (got : JsonType)
  | groupedTwice
  | labelSpelling
  | labelTaken
  | fieldNeeded (function : AggregateFunction) (entity : String)
  | numberNeeded (function : AggregateFunction)
  | booleanExtreme (function : AggregateFunction)
  | unknownDirection (name : String)
  | orderNotGrouped
  | noTimeField (entity : String)
  | startNotTimestamp (text : String)
  | finishNotTimestamp (text : String)
  | stated (reason : String)
  deriving DecidableEq, Repr

inductive RangeFault
  | bothMissing
  | startMissing
  | finishMissing
  | reversed
  | stated (reason : String)
  deriving DecidableEq, Repr

inductive PlanError
  | unknownEntity (entity : String)
  | unknownField (entity field : String)
  | unsupportedOperation (fault : OperationFault)
  | invalidFilter (field : String) (fault : FilterFault)
  | timeRangeRequired (entity : String) (fault : RangeFault)
  | limitExceeded (limit : Int64) (max : UInt32)
  deriving DecidableEq, Repr

def OperationFault.message : OperationFault → String
  | .unknownOperation name => "Operation '" ++ name ++ "' is not supported"
  | .listWithAggregations => "list plans cannot carry aggregations"
  | .listWithGroups => "list plans cannot carry groupBy"
  | .noAggregations => "aggregate plans need at least one aggregation"
  | .unknownFunction name => "Aggregation function '" ++ name ++ "' is not supported"
  | .stated reason => reason

def FilterFault.message : FilterFault → String
  | .unknownOperator name => "unknown operator '" ++ name ++ "'"
  | .operatorNotAllowed o => "operator '" ++ o.name ++ "' is not allowed on this field"
  | .emptyList => "in requires a non-empty list"
  | .longList => "in accepts at most 500 values"
  | .patternNotText => "like requires a string value"
  | .notTwoBounds => "between requires exactly two bounds"
  | .boundsReversed => "between bounds must be ordered low to high"
  | .kindMismatch kind got => "expected a " ++ kind.name ++ " value, got " ++ got.name
  | .groupedTwice => "field appears twice in groupBy"
  | .labelSpelling =>
    "alias must start with a letter or underscore and contain only letters, digits and underscores"
  | .labelTaken => "alias is not unique"
  | .fieldNeeded function entity =>
    function.keyword ++ " requires a field of entity '" ++ entity ++ "'"
  | .numberNeeded function => function.keyword ++ " requires a number field"
  | .booleanExtreme function => function.keyword ++ " cannot apply to a boolean field"
  | .unknownDirection name => "ordering direction '" ++ name ++ "' must be asc or desc"
  | .orderNotGrouped => "aggregate plans can only order by group-by fields or aliases"
  | .noTimeField entity => "entity '" ++ entity ++ "' has no time field"
  | .startNotTimestamp text => "start '" ++ text ++ "' is not a recognised timestamp"
  | .finishNotTimestamp text => "end '" ++ text ++ "' is not a recognised timestamp"
  | .stated reason => reason

def RangeFault.message : RangeFault → String
  | .bothMissing => "timeRange.start and timeRange.end are missing"
  | .startMissing => "timeRange.start is missing"
  | .finishMissing => "timeRange.end is missing"
  | .reversed => "timeRange.start is after timeRange.end"
  | .stated reason => reason

namespace PlanError

/-- A catalog error met while a plan is looked at; a catalog in use never fails to load. -/
def ofCatalog : CatalogError → PlanError
  | .unknownEntity e => .unknownEntity e
  | .unknownField e f => .unknownField e f
  | .loadFailed s r => .unsupportedOperation (.stated (CatalogError.loadFailed s r).message)

def message : PlanError → String
  | .unknownEntity e => (CatalogError.unknownEntity e).message
  | .unknownField e f => (CatalogError.unknownField e f).message
  | .unsupportedOperation fault => fault.message
  | .invalidFilter field fault => "Field '" ++ field ++ "': " ++ fault.message
  | .timeRangeRequired e fault => "Entity '" ++ e ++ "' requires a time range: " ++ fault.message
  | .limitExceeded limit max =>
    "Limit " ++ String.ofList (Number.intText limit.toInt) ++ " must be between 1 and " ++
      String.ofList (Number.digits max.toNat)

def field? : PlanError → Option String
  | .unknownField _ f => some f
  | .invalidFilter f _ => some f
  | _ => none

end PlanError

end CatalogQuery
