import CatalogQuery.Proofs.AcceptedPlan
import CatalogQuery.Report.Failure
/-!
# Criteria for plans

What a plan has to say so that it is accepted, in six stages, each on its own: on which entity it is,
what it asks for, which fields it names, what it says about them, its time range and its limit. A plan
is accepted if it passes all stages, and otherwise rejected with the code of the first stage that it
does not pass.
-/
namespace CatalogQuery

def Entity.Declares (e : Entity) (name : String) : Prop := ∃ f ∈ e.fields, f.name = name

/-- The value is one that fields of the kind are compared with. -/
def Json.IsValueOf : ValueKind → Json → Prop
  | .string, .str _ => True
  | .number, .int _ | .number, .real _ => True
  | .boolean, .bool _ => True
  | .timestamp, .str s => ∃ t, Time.Timestamp.parse? s = some t
  | _, _ => False

/-- A letter or an underscore, and up to sixty-two letters, digits and underscores. -/
def Text.IsLabelSpelling (s : String) : Prop :=
  ∃ head rest, s.toList = head :: rest ∧ rest.length ≤ 62 ∧ (head.isAlpha = true ∨ head = '_') ∧
    ∀ c ∈ rest, c.isAlphanum = true ∨ c = '_'

namespace Plan

/-- Stage one: the plan is on an entity of the catalog. -/
structure IsOn (p : Plan) (c : Catalog) (e : Entity) : Prop where
  declared : e ∈ c.entities
  named : e.name = p.entity

/-- Stage two: rows without aggregates and groups, or at least one aggregate, all of known functions.
-/
def IsShaped (p : Plan) : Prop :=
  (p.operation = "list" ∧ p.aggregations = [] ∧ p.groupBy = []) ∨
    (p.operation = "aggregate" ∧ p.aggregations ≠ [] ∧
      ∀ a ∈ p.aggregations, a.function ∈ ["count", "sum", "avg", "min", "max"])

/-- One of the aggregates of the plan has the name. -/
def Labels (p : Plan) (name : String) : Prop := ∃ a ∈ p.aggregations, a.label = name

/-- Stage three: the names are those of fields. An aggregate may be over all rows, and aggregates may
be ordered by the label of one of them. -/
structure NamesFields (p : Plan) (e : Entity) : Prop where
  filters : ∀ f ∈ p.filters, e.Declares f.field
  groupBy : ∀ name ∈ p.groupBy, e.Declares name
  aggregations : ∀ a ∈ p.aggregations, ∀ name, a.field = some name → name = "*" ∨ e.Declares name
  orderBy : ∀ o ∈ p.orderBy, (p.operation = "aggregate" ∧ p.Labels o.field) ∨ e.Declares o.field

/-- The operand an operator takes on a field of a kind. -/
def IsOperand (kind : ValueKind) : Operator → Json → Prop
  | .isIn, v => ∃ items, v = .arr items ∧ 1 ≤ items.length ∧ items.length ≤ 500 ∧
      ∀ item ∈ items, item.IsValueOf kind
  | .like, v => ∃ s, v = .str s
  | .between, v => ∃ low high a b, v = .arr [low, high] ∧ Scalar.ofJson? kind low = some a ∧
      Scalar.ofJson? kind high = some b ∧ a.compare? b ≠ some .gt
  | _, v => v.IsValueOf kind

/-- The operator is known and allowed on the field, and the value is an operand of it. -/
def Filter.Fits (f : Filter) (e : Entity) : Prop :=
  ∃ field ∈ e.fields, field.name = f.field ∧
    ∃ o : Operator, o.name = f.operator ∧ o ∈ field.operators ∧ IsOperand field.kind o f.value

/-- The function applies to what is aggregated: counting to anything, sums and averages to numbers,
extremes to all but booleans. -/
def Aggregation.Fits (a : Aggregation) (e : Entity) : Prop :=
  a.function = "count" ∨
    ∃ field ∈ e.fields, a.field = some field.name ∧ field.name ≠ "*" ∧
      ((a.function ∈ ["sum", "avg"] ∧ field.kind = .number) ∨
        (a.function ∈ ["min", "max"] ∧ field.kind ≠ .boolean))

/-- Stage four: what the plan says about the fields holds together. -/
structure IsSound (p : Plan) (e : Entity) : Prop where
  filters : ∀ f ∈ p.filters, f.Fits e
  groups_nodup : p.groupBy.Nodup
  labels_spelled : ∀ a ∈ p.aggregations, Text.IsLabelSpelling a.label
  labels_nodup : (p.aggregations.map (·.label)).Nodup
  labels_ungrouped : ∀ a ∈ p.aggregations, a.label ∉ p.groupBy
  targets : ∀ a ∈ p.aggregations, a.Fits e
  directions : ∀ o ∈ p.orderBy, o.direction = "asc" ∨ o.direction = "desc"
  orders_grouped : p.operation = "aggregate" →
    ∀ o ∈ p.orderBy, p.Labels o.field ∨ o.field ∈ p.groupBy

/-- A bound of a time range is there and not blank. -/
def IsBound (bound : Option String) (s : String) : Prop :=
  bound = some s ∧ ∃ c ∈ s.toList, Text.isBlank c = false

/-- The plan has a bound that is not blank at the beginning of its time range. -/
def StartsAt (p : Plan) (s : String) : Prop := IsBound (p.timeRange.bind (·.start)) s

/-- The plan has a bound that is not blank at the end of its time range. -/
def EndsAt (p : Plan) (s : String) : Prop := IsBound (p.timeRange.bind (·.finish)) s

/-- Stage five: no bounds on an entity that needs none, or both, in order, on one with a time field.
-/
def FitsTimeRange (p : Plan) (e : Entity) : Prop :=
  ((∀ s, ¬ p.StartsAt s) ∧ (∀ s, ¬ p.EndsAt s) ∧ e.requiresTimeRange = false) ∨
    ∃ start finish a b, p.StartsAt start ∧ p.EndsAt finish ∧ e.timeField.isSome = true ∧
      Time.Timestamp.parse? start = some a ∧ Time.Timestamp.parse? finish = some b ∧
      a.order b ≠ .gt

/-- The bounds are wanting: none where they are required, one without the other, or two timestamps
that are not in order. -/
def LacksTimeRange (p : Plan) (e : Entity) : Prop :=
  ((∀ s, ¬ p.StartsAt s) ∧ (∀ s, ¬ p.EndsAt s) ∧ e.requiresTimeRange = true) ∨
    ((∃ s, p.StartsAt s) ∧ ∀ s, ¬ p.EndsAt s) ∨ ((∀ s, ¬ p.StartsAt s) ∧ ∃ s, p.EndsAt s) ∨
    ∃ start finish a b, p.StartsAt start ∧ p.EndsAt finish ∧ e.timeField.isSome = true ∧
      Time.Timestamp.parse? start = some a ∧ Time.Timestamp.parse? finish = some b ∧
      a.order b = .gt

/-- Both bounds are there and cannot be used: the entity has no time field, or one of them is no
timestamp. -/
def MistakesTimeRange (p : Plan) (e : Entity) : Prop :=
  ∃ start finish, p.StartsAt start ∧ p.EndsAt finish ∧
    (e.timeField = none ∨ Time.Timestamp.parse? start = none ∨ Time.Timestamp.parse? finish = none)

/-- Stage six: a limit is at least one and at most the greatest. -/
def FitsLimit (p : Plan) (policy : LimitPolicy) : Prop :=
  ∀ n, p.limit = some n → 1 ≤ n.toInt ∧ n.toInt ≤ policy.max.toNat

/-- The plan passes all stages. -/
def IsAcceptable (c : Catalog) (policy : LimitPolicy) (p : Plan) : Prop :=
  ∃ e, p.IsOn c e ∧ p.IsShaped ∧ p.NamesFields e ∧ p.IsSound e ∧ p.FitsTimeRange e ∧
    p.FitsLimit policy

/-- The code of the first stage that the plan does not pass. -/
inductive FailsWith (c : Catalog) (policy : LimitPolicy) (p : Plan) : ErrorCode → Prop
  | entity (h : ∀ e, ¬ p.IsOn c e) : FailsWith c policy p .unknownEntity
  | operation {e : Entity} (he : p.IsOn c e) (h : ¬ p.IsShaped) :
      FailsWith c policy p .unsupportedOperation
  | field {e : Entity} (he : p.IsOn c e) (hs : p.IsShaped) (h : ¬ p.NamesFields e) :
      FailsWith c policy p .unknownField
  | filter {e : Entity} (he : p.IsOn c e) (hs : p.IsShaped) (hf : p.NamesFields e)
      (h : ¬ p.IsSound e) : FailsWith c policy p .invalidFilter
  | rangeWanting {e : Entity} (he : p.IsOn c e) (hs : p.IsShaped) (hf : p.NamesFields e)
      (hd : p.IsSound e) (h : p.LacksTimeRange e) : FailsWith c policy p .timeRangeRequired
  | rangeMistaken {e : Entity} (he : p.IsOn c e) (hs : p.IsShaped) (hf : p.NamesFields e)
      (hd : p.IsSound e) (h : p.MistakesTimeRange e) : FailsWith c policy p .invalidFilter
  | limit {e : Entity} (he : p.IsOn c e) (hs : p.IsShaped) (hf : p.NamesFields e)
      (hd : p.IsSound e) (ht : p.FitsTimeRange e) (h : ¬ p.FitsLimit policy) :
      FailsWith c policy p .limitExceeded

end Plan
end CatalogQuery
