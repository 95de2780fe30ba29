import CatalogQuery.Json.Basic
/-!
# Query plans

A plan as a caller sends it. Names of operators, functions and directions are still text here, so
that an unknown one is an answer about the plan and not about its form.
-/
namespace CatalogQuery

structure Plan.Filter where
  field : String
  operator : String
  value : Json := .null
  deriving Repr, BEq

structure Plan.Order where
  field : String
  direction : String := "asc"
  deriving Repr, BEq, DecidableEq

/-- An aggregate under a name of its own; without a field it is over all rows. -/
structure Plan.Aggregation where
  function : String
  field : Option String := none
  label : String
  deriving Repr, BEq, DecidableEq

structure Plan.TimeRange where
  start : Option String := none
  finish : Option String := none
  deriving Repr, BEq, DecidableEq

/-- A request for rows of an entity, or for aggregates over them. -/
structure Plan where
  entity : String
  operation : String
  filters : List Plan.Filter := []
  orderBy : List Plan.Order := []
  groupBy : List String := []
  aggregations : List Plan.Aggregation := []
  timeRange : Option Plan.TimeRange := none
  limit : Option Int64 := none
  requestId : Option String := none
  deriving Repr, BEq

namespace Plan

def list (entity : String) : Plan := { entity, operation := "list" }

def aggregate (entity : String) : Plan := { entity, operation := "aggregate" }

def addFilter (p : Plan) (field operator : String) (value : Json) : Plan :=
  { p with filters := p.filters ++ [{ field, operator, value }] }

def addOrder (p : Plan) (field direction : String) : Plan :=
  { p with orderBy := p.orderBy ++ [{ field, direction }] }

def addGroup (p : Plan) (field : String) : Plan := { p with groupBy := p.groupBy ++ [field] }

def addAggregation (p : Plan) (function : String) (field : Option String) (label : String) : Plan :=
  { p with aggregations := p.aggregations ++ [{ function, field, label }] }

def withTimeRange (p : Plan) (start finish : String) : Plan :=
  { p with timeRange := some { start := some start, finish := some finish } }

def withLimit (p : Plan) (n : Int64) : Plan := { p with limit := some n }

def withRequestId (p : Plan) (id : String) : Plan := { p with requestId := some id }

end Plan

end CatalogQuery
