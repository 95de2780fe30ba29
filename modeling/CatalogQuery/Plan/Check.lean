import CatalogQuery.Plan.Basic
import CatalogQuery.Plan.Error
/-!
# Checking plans

Six stages in a fixed order: the entity, the operation with its functions, the fields, what is said
about them, the time range, the limit. The first stage that fails gives the answer. Nothing is
corrected on the way: a plan is either rejected or taken as it is.
-/
namespace CatalogQuery

/-- The greatest limit a plan may ask for, and the limit of a plan that asks for none. -/
structure LimitPolicy where
  max : UInt32 := 1000
  default : UInt32 := 100
  deriving DecidableEq, Repr, Inhabited

/-- Applies a check to every element in order, up to the first failure. -/
def checkAll {α β ε : Type} (f : α → Except ε β) : List α → Except ε (List β)
  | [] => .ok []
  | x :: xs => do
    let y ← f x
    let ys ← checkAll f xs
    .ok (y :: ys)

def allRows : String := "*"

namespace Plan

/-- The shape of an operation: rows come without aggregates and groups, aggregates with at least one
aggregation. -/
def checkShape (p : Plan) (operation : Operation) : Except PlanError Unit :=
  match operation with
  | .list =>
    if !p.aggregations.isEmpty then .error (.unsupportedOperation .listWithAggregations)
    else if !p.groupBy.isEmpty then .error (.unsupportedOperation .listWithGroups)
    else .ok ()
  | .aggregate =>
    if p.aggregations.isEmpty then .error (.unsupportedOperation .noAggregations) else .ok ()

def checkFunction (a : Aggregation) : Except PlanError AggregateFunction :=
  match AggregateFunction.ofName? a.function with
  | some f => .ok f
  | none => .error (.unsupportedOperation (.unknownFunction a.function))

def checkOperation (p : Plan) : Except PlanError (Operation × List AggregateFunction) :=
  match Operation.ofName? p.operation with
  | none => .error (.unsupportedOperation (.unknownOperation p.operation))
  | some operation => do
    p.checkShape operation
    let functions ← checkAll checkFunction p.aggregations
    .ok (operation, functions)

def resolveField (e : Entity) (name : String) : Except PlanError Field :=
  match e.fieldNamed? name with
  | some f => .ok f
  | none => .error (.unknownField e.name name)

def resolveTarget (e : Entity) (a : Aggregation) : Except PlanError (Option Field) :=
  match a.field with
  | none => .ok none
  | some name => if name = allRows then .ok none else (resolveField e name).map some

/-- What an ordering goes by. In a plan for aggregates a label is found before a field. -/
def resolveOrder (e : Entity) (operation : Operation) (aggregations : List Aggregation)
    (o : Order) : Except PlanError OrderTarget :=
  match operation with
  | .list => (resolveField e o.field).map .field
  | .aggregate =>
    match aggregations.findIdx? (·.label == o.field) with
    | some index => .ok (.aggregate index)
    | none => (resolveField e o.field).map .field

structure Resolved where
  filters : List Field
  groupBy : List Field
  aggregations : List (Option Field)
  orderBy : List OrderTarget
  deriving DecidableEq, Repr

def resolve (p : Plan) (e : Entity) (operation : Operation) : Except PlanError Resolved := do
  let filters ← checkAll (fun f => resolveField e f.field) p.filters
  let groupBy ← checkAll (resolveField e) p.groupBy
  let aggregations ← checkAll (resolveTarget e) p.aggregations
  let orderBy ← checkAll (resolveOrder e operation p.aggregations) p.orderBy
  .ok { filters, groupBy, aggregations, orderBy }

/-- The value of a filter as a scalar of the field's kind. -/
def checkScalar (f : Field) (v : Json) : Except PlanError Scalar :=
  match Scalar.ofJson? f.kind v with
  | some s => .ok s
  | none => .error (.invalidFilter f.name (.kindMismatch f.kind v.type))

def checkComparison (f : Field) (op : Comparison) (v : Json) : Except PlanError Predicate :=
  (checkScalar f v).map (.compare op)

def checkList (f : Field) (v : Json) : Except PlanError Predicate :=
  match v with
  | .arr [] => .error (.invalidFilter f.name .emptyList)
  | .arr items =>
    if maxListValues < items.length then .error (.invalidFilter f.name .longList)
    else (checkAll (checkScalar f) items).map .isIn
  | _ => .error (.invalidFilter f.name .emptyList)

def checkPattern (f : Field) (v : Json) : Except PlanError Predicate :=
  match v with
  | .str s => .ok (.like s)
  | _ => .error (.invalidFilter f.name .patternNotText)

def checkBounds (f : Field) (v : Json) : Except PlanError Predicate :=
  match v with
  | .arr [low, high] => do
    let low ← checkScalar f low
    let high ← checkScalar f high
    if low.compare? high = some .gt then .error (.invalidFilter f.name .boundsReversed)
    else .ok (.between low high)
  | _ => .error (.invalidFilter f.name .notTwoBounds)

def checkOperand (f : Field) (o : Operator) (v : Json) : Except PlanError Predicate :=
  match o with
  | .eq => checkComparison f .eq v
  | .neq => checkComparison f .neq v
  | .gt => checkComparison f .gt v
  | .gte => checkComparison f .gte v
  | .lt => checkComparison f .lt v
  | .lte => checkComparison f .lte v
  | .isIn => checkList f v
  | .like => checkPattern f v
  | .between => checkBounds f v

def checkFilter (p : Filter × Field) : Except PlanError CheckedFilter :=
  match Operator.ofName? p.1.operator with
  | none => .error (.invalidFilter p.2.name (.unknownOperator p.1.operator))
  | some o =>
    if p.2.allows o then (checkOperand p.2 o p.1.value).map fun pr => ⟨p.2, pr⟩
    else .error (.invalidFilter p.2.name (.operatorNotAllowed o))

/-- No field is grouped by twice; `seen` are the ids before. -/
def checkGroups : List Nat → List Field → Except PlanError Unit
  | _, [] => .ok ()
  | seen, f :: rest =>
    if f.id ∈ seen then .error (.invalidFilter f.name .groupedTwice)
    else checkGroups (f.id :: seen) rest

def checkTarget (entity : String) (a : CheckedAggregation) : Except PlanError Unit :=
  match a.function, a.target with
  | .count, _ => .ok ()
  | function, none => .error (.invalidFilter a.label (.fieldNeeded function entity))
  | .sum, some f | .avg, some f =>
    if f.kind = .number then .ok () else .error (.invalidFilter f.name (.numberNeeded a.function))
  | .min, some f | .max, some f =>
    if f.kind = .boolean then .error (.invalidFilter f.name (.booleanExtreme a.function))
    else .ok ()

/-- Aliases are well spelled, distinct and no names of grouped fields; `taken` are the names before.
-/
def checkAggregations (entity : String) :
    List String → List CheckedAggregation → Except PlanError Unit
  | _, [] => .ok ()
  | taken, a :: rest =>
    if !Text.isLabel a.label then .error (.invalidFilter a.label .labelSpelling)
    else if a.label ∈ taken then .error (.invalidFilter a.label .labelTaken)
    else do
      checkTarget entity a
      checkAggregations entity (a.label :: taken) rest

/-- The direction is known, and aggregates are ordered by what is grouped or aggregated. -/
def checkOrder (operation : Operation) (groupBy : List Field) (p : Order × OrderTarget) :
    Except PlanError CheckedOrder :=
  match Direction.ofName? p.1.direction with
  | none => .error (.invalidFilter p.1.field (.unknownDirection p.1.direction))
  | some direction =>
    match p.2 with
    | .aggregate index => .ok ⟨.aggregate index, direction⟩
    | .field f =>
      if operation = .aggregate ∧ f.id ∉ groupBy.map (·.id) then
        .error (.invalidFilter f.name .orderNotGrouped)
      else .ok ⟨.field f, direction⟩

/-- A bound that is not blank. -/
def presentBound (bound : Option String) : Option String :=
  bound.filter fun s => !Text.isAllBlank s

def timeRangeName : String := "timeRange"

def checkTimeRange (e : Entity) (range : Option TimeRange) :
    Except PlanError (Option CheckedRange) :=
  let bounds := range.getD {}
  match presentBound bounds.start, presentBound bounds.finish with
  | none, none =>
    if e.requiresTimeRange then .error (.timeRangeRequired e.name .bothMissing) else .ok none
  | some _, none => .error (.timeRangeRequired e.name .finishMissing)
  | none, some _ => .error (.timeRangeRequired e.name .startMissing)
  | some start, some finish =>
    if e.timeField.isNone then .error (.invalidFilter timeRangeName (.noTimeField e.name))
    else
      match Time.Timestamp.parse? start, Time.Timestamp.parse? finish with
      | none, _ => .error (.invalidFilter timeRangeName (.startNotTimestamp start))
      | some _, none => .error (.invalidFilter timeRangeName (.finishNotTimestamp finish))
      | some start, some finish =>
        if start.order finish = .gt then .error (.timeRangeRequired e.name .reversed)
        else .ok (some ⟨start, finish⟩)

def checkLimit (policy : LimitPolicy) (limit : Option Int64) : Except PlanError UInt32 :=
  match limit with
  | none => .ok policy.default
  | some n =>
    if 1 ≤ n.toInt ∧ n.toInt ≤ policy.max.toNat then .ok (.ofNat n.toInt.toNat)
    else .error (.limitExceeded n policy.max)

def check (c : Catalog) (policy : LimitPolicy) (p : Plan) : Except PlanError CheckedPlan :=
  match c.entityNamed? p.entity with
  | none => .error (.unknownEntity p.entity)
  | some e => do
    let (operation, functions) ← p.checkOperation
    let resolved ← p.resolve e operation
    let filters ← checkAll checkFilter (p.filters.zip resolved.filters)
    checkGroups [] resolved.groupBy
    let aggregations :=
      ((p.aggregations.zip functions).zip resolved.aggregations).map fun a =>
        { function := a.1.2, target := a.2, label := a.1.1.label : CheckedAggregation }
    checkAggregations e.name (resolved.groupBy.map (·.name)) aggregations
    let orderBy ← checkAll (checkOrder operation resolved.groupBy) (p.orderBy.zip resolved.orderBy)
    let timeRange ← checkTimeRange e p.timeRange
    let limit ← checkLimit policy p.limit
    .ok { entity := e, operation, filters, orderBy, groupBy := resolved.groupBy, aggregations,
          timeRange, limit, requestId := p.requestId }

end Plan

end CatalogQuery
