import CatalogQuery.Json.Access
import CatalogQuery.Plan.Checked
/-!
# Inspecting checked plans

A checked plan as JSON, to show what was understood.
-/
namespace CatalogQuery

open Json

def Time.Timestamp.inspect (t : Time.Timestamp) : Json :=
  .obj [("timestamp", .str t.text), ("nanos", .int t.nanos)]

def Scalar.inspect : Scalar → Json
  | .text s => .obj [("text", .str s)]
  | .integer n => .obj [("integer", .int n.toInt)]
  | .real x => .obj [("real", .real x)]
  | .bool b => .obj [("bool", .bool b)]
  | .timestamp t => t.inspect

def Predicate.inspect : Predicate → Json
  | .compare op value => .obj [("compare", .str op.sign), ("value", value.inspect)]
  | .isIn values => .obj [("in", .arr (values.map Scalar.inspect))]
  | .like text => .obj [("like", .str text)]
  | .between low high => .obj [("between", .arr [low.inspect, high.inspect])]

def fieldReference (f : Field) : Json := .obj [("field", .str f.name)]

def CheckedFilter.inspect (f : CheckedFilter) : Json :=
  .obj [("field", .str f.field.name), ("predicate", f.predicate.inspect)]

def OrderTarget.inspect : OrderTarget → Json
  | .field f => fieldReference f
  | .aggregate index => .obj [("aggregate", .int index)]

def CheckedOrder.inspect (o : CheckedOrder) : Json :=
  .obj [("direction", .str o.direction.keyword), ("target", o.target.inspect)]

def CheckedAggregation.inspect (a : CheckedAggregation) : Json :=
  .obj
    [("function", .str a.function.keyword), ("alias", .str a.label),
     ("target", (a.target.map fieldReference).getD (.str "*"))]

def CheckedRange.inspect (r : CheckedRange) : Json := .arr [r.start.inspect, r.finish.inspect]

def CheckedPlan.inspect (p : CheckedPlan) : Json :=
  .obj
    [("entity", .str p.entity.name), ("operation", .str p.operation.name),
     ("limit", .int p.limit.toNat), ("requestId", ofOption .str p.requestId),
     ("filters", .arr (p.filters.map CheckedFilter.inspect)),
     ("orderBy", .arr (p.orderBy.map CheckedOrder.inspect)),
     ("groupBy", .arr (p.groupBy.map fun f => .str f.name)),
     ("aggregations", .arr (p.aggregations.map CheckedAggregation.inspect)),
     ("timeRange", ofOption CheckedRange.inspect p.timeRange)]

/-- What a function makes of each kind of values, and without a field. -/
def AggregateFunction.inspect (f : AggregateFunction) : Json :=
  .obj
    [("sql", .str f.keyword),
     ("kinds", .arr (ValueKind.all.map fun k => .str (f.outputKind (some k)).name)),
     ("noField", .str (f.outputKind none).name)]

end CatalogQuery
