import CatalogQuery.Catalog.Basic
import CatalogQuery.Plan.Scalar
/-!
# Checked plans

What is left of a plan once it has been checked: fields of the catalog instead of names, and closed
vocabularies instead of text.
-/
namespace CatalogQuery

inductive Operation
  | list
  | aggregate
  deriving DecidableEq, Repr, Inhabited

inductive Direction
  | asc
  | desc
  deriving DecidableEq, Repr, Inhabited

inductive AggregateFunction
  | count
  | sum
  | avg
  | min
  | max
  deriving DecidableEq, Repr, Inhabited

inductive Comparison
  | eq
  | neq
  | gt
  | gte
  | lt
  | lte
  deriving DecidableEq, Repr, Inhabited

namespace Operation

def name : Operation → String
  | .list => "list"
  | .aggregate => "aggregate"

def ofName? (s : String) : Option Operation :=
  if s = "list" then some .list else if s = "aggregate" then some .aggregate else none

end Operation

namespace Direction

def keyword : Direction → String
  | .asc => "ASC"
  | .desc => "DESC"

def ofName? (s : String) : Option Direction :=
  if s = "asc" then some .asc else if s = "desc" then some .desc else none

end Direction

namespace AggregateFunction

def all : List AggregateFunction := [.count, .sum, .avg, .min, .max]

def name : AggregateFunction → String
  | .count => "count"
  | .sum => "sum"
  | .avg => "avg"
  | .min => "min"
  | .max => "max"

def keyword : AggregateFunction → String
  | .count => "COUNT"
  | .sum => "SUM"
  | .avg => "AVG"
  | .min => "MIN"
  | .max => "MAX"

def ofName? (s : String) : Option AggregateFunction := all.find? (·.name == s)

/-- The kind of the result: the extremes keep the kind of their field. -/
def outputKind : AggregateFunction → Option ValueKind → ValueKind
  | .min, some k | .max, some k => k
  | _, _ => .number

end AggregateFunction

def Comparison.sign : Comparison → String
  | .eq => "="
  | .neq => "<>"
  | .gt => ">"
  | .gte => ">="
  | .lt => "<"
  | .lte => "<="

/-- What a filter says about the value of its field. -/
inductive Predicate
  | compare (op : Comparison) (value : Scalar)
  | isIn (values : List Scalar)
  | like (text : String)
  | between (low high : Scalar)
  deriving DecidableEq, Repr

structure CheckedFilter where
  field : Field
  predicate : Predicate
  deriving DecidableEq, Repr

structure CheckedAggregation where
  function : AggregateFunction
  target : Option Field
  label : String
  deriving DecidableEq, Repr

/-- What an ordering goes by: a field, or the aggregation at a position. -/
inductive OrderTarget
  | field (f : Field)
  | aggregate (index : Nat)
  deriving DecidableEq, Repr

structure CheckedOrder where
  target : OrderTarget
  direction : Direction
  deriving DecidableEq, Repr

structure CheckedRange where
  start : Time.Timestamp
  finish : Time.Timestamp
  deriving DecidableEq, Repr

structure CheckedPlan where
  entity : Entity
  operation : Operation
  filters : List CheckedFilter
  orderBy : List CheckedOrder
  groupBy : List Field
  aggregations : List CheckedAggregation
  timeRange : Option CheckedRange
  limit : UInt32
  requestId : Option String
  deriving DecidableEq, Repr

end CatalogQuery
