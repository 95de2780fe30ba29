import CatalogQuery.Plan.Basic
import CatalogQuery.Catalog.File
/-!
# The JSON form of plans

Lists may be missing and are then empty; a time range, a limit and a request id may also be null.
When a plan is written, absent options are left out and lists are always there.
-/
namespace CatalogQuery

open Json

namespace Plan

def Filter.record : Record Filter :=
  Filter.mk <$> .required "field" Reader.string
    <*> .required "operator" Reader.string
    <*> .withDefault "value" Reader.value .null

def Filter.toJson (f : Filter) : Json :=
  .obj [("field", .str f.field), ("operator", .str f.operator), ("value", f.value)]

def Order.record : Record Order :=
  Order.mk <$> .required "field" Reader.string
    <*> .withDefault "direction" Reader.string "asc"

def Order.toJson (o : Order) : Json :=
  .obj [("field", .str o.field), ("direction", .str o.direction)]

def Aggregation.record : Record Aggregation :=
  Aggregation.mk <$> .required "function" Reader.string
    <*> .optional "field" Reader.string
    <*> .required "alias" Reader.string

def Aggregation.toJson (a : Aggregation) : Json :=
  .obj <|
    [("function", .str a.function)] ++ optionMember "field" .str a.field ++
    [("alias", .str a.label)]

def TimeRange.record : Record TimeRange :=
  TimeRange.mk <$> .optional "start" Reader.string <*> .optional "end" Reader.string

def TimeRange.toJson (r : TimeRange) : Json :=
  .obj (optionMember "start" .str r.start ++ optionMember "end" .str r.finish)

def record : Record Plan :=
  Plan.mk <$> .required "entity" Reader.string
    <*> .required "operation" Reader.string
    <*> .withDefault "filters" (Reader.list Filter.record.reader) []
    <*> .withDefault "orderBy" (Reader.list Order.record.reader) []
    <*> .withDefault "groupBy" (Reader.list Reader.string) []
    <*> .withDefault "aggregations" (Reader.list Aggregation.record.reader) []
    <*> .optional "timeRange" TimeRange.record.reader
    <*> .optional "limit" Reader.int64
    <*> .optional "requestId" Reader.string

def toJson (p : Plan) : Json :=
  .obj <|
    [("entity", .str p.entity), ("operation", .str p.operation),
     ("filters", .arr (p.filters.map Filter.toJson)),
     ("orderBy", .arr (p.orderBy.map Order.toJson)),
     ("groupBy", .arr (p.groupBy.map .str)),
     ("aggregations", .arr (p.aggregations.map Aggregation.toJson))] ++
    optionMember "timeRange" TimeRange.toJson p.timeRange ++
    optionMember "limit" (fun n => .int n.toInt) p.limit ++
    optionMember "requestId" .str p.requestId

def ofJson (j : Json) : Except Fault Plan := readValue record.reader j

def ofText (s : String) : Except Fault Plan := readText record.reader s

end Plan

end CatalogQuery
