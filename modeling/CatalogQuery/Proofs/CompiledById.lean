import CatalogQuery.Proofs.AggregatePlan
import CatalogQuery.Proofs.CatalogArena
import CatalogQuery.Proofs.CursorValue
/-!
# Compiling by ids

A checked plan with ids in the place of its entity and its fields. Whatever has to be looked up on the
way from such a plan to its query is there: an entity or a field by its id, a result by its position,
a column by its name, a value of an accepted cursor by its position. So compiling without any value to
fall back on gives what compiling gives.
-/
namespace CatalogQuery

/-- What an ordering goes by: the field of an id, or the aggregation at a position. -/
inductive TargetById
  | field (id : Nat)
  | aggregate (index : Nat)
  deriving DecidableEq, Repr

structure AggregationById where
  function : AggregateFunction
  target : Option Nat
  label : String
  deriving DecidableEq, Repr

structure PlanById where
  entity : Nat
  operation : Operation
  filters : List (Nat × Predicate)
  orderBy : List (TargetById × Direction)
  groupBy : List Nat
  aggregations : List AggregationById
  timeRange : Option CheckedRange
  limit : UInt32
  requestId : Option String
  deriving DecidableEq, Repr

def OrderTarget.byId : OrderTarget → TargetById
  | .field f => .field f.id
  | .aggregate index => .aggregate index

def CheckedAggregation.byId (a : CheckedAggregation) : AggregationById where
  function := a.function
  target := a.target.map (·.id)
  label := a.label

/-- The plan with ids in the place of what they lead to. -/
def CheckedPlan.byId (p : CheckedPlan) : PlanById where
  entity := p.entity.id
  operation := p.operation
  filters := p.filters.map fun f => (f.field.id, f.predicate)
  orderBy := p.orderBy.map fun o => (o.target.byId, o.direction)
  groupBy := p.groupBy.map (·.id)
  aggregations := p.aggregations.map (·.byId)
  timeRange := p.timeRange
  limit := p.limit
  requestId := p.requestId

/-- A field that may be left out; an id has to lead to one. -/
def Entity.optionalField? (e : Entity) : Option Nat → Option (Option Field)
  | none => some none
  | some id => (e.field? id).map some

def TargetById.lookUp? (e : Entity) : TargetById → Option OrderTarget
  | .field id => (e.field? id).map .field
  | .aggregate index => some (.aggregate index)

def AggregationById.lookUp? (e : Entity) (a : AggregationById) : Option CheckedAggregation :=
  (e.optionalField? a.target).map fun target => ⟨a.function, target, a.label⟩

/-- The plan with what its ids lead to, if all of them lead somewhere. -/
def PlanById.lookUp? (c : Catalog) (p : PlanById) : Option CheckedPlan := do
  let entity ← c.entity? p.entity
  let filters ← p.filters.mapM fun f => (entity.field? f.1).map (⟨·, f.2⟩)
  let orderBy ← p.orderBy.mapM fun o => (o.1.lookUp? entity).map (⟨·, o.2⟩)
  let groupBy ← p.groupBy.mapM entity.field?
  let aggregations ← p.aggregations.mapM (·.lookUp? entity)
  some { entity, operation := p.operation, filters, orderBy, groupBy, aggregations,
         timeRange := p.timeRange, limit := p.limit, requestId := p.requestId }

namespace CheckedPlan

/-- The key of an ordering, if what it goes by is a result and a result column has its name. -/
def orderKey? (p : CheckedPlan) (columns : List OutputColumn) (o : CheckedOrder) :
    Option OrderKey :=
  match o.target with
  | .field f => do
    let column ← columns.findIdx? (·.name == f.name)
    some { term := .column f.column, column, direction := o.direction, nullable := f.nullable }
  | .aggregate index => do
    let a ← p.aggregations[index]?
    let column ← columns.findIdx? (·.name == a.label)
    some { term := .label a.label, column, direction := o.direction, nullable := true }

/-- The query of a plan, if all that it takes to compile it is there. -/
def compile? (p : CheckedPlan) (generation : UInt64) : Option CompiledQuery := do
  let columns := p.outputs.map (·.2)
  let timeField ← p.entity.optionalField? p.entity.timeFieldId
  let orderBy ← p.orderBy.mapM (p.orderKey? columns)
  let rangeConditions : List (Condition Param) :=
    match p.timeRange, timeField with
    | some range, some f =>
      [.compare f.column .gte (.ofScalar (.timestamp range.start)),
       .compare f.column .lte (.ofScalar (.timestamp range.finish))]
    | _, _ => []
  let base : Statement Param :=
    { output := p.outputs.map (·.1), table := p.entity.table,
      conditions := p.filters.map filterCondition ++ rangeConditions,
      groupBy := p.groupBy.map (·.column),
      orderBy := orderBy.map fun k => (k.term, k.direction) }
  some
    { entity := p.entity.name, operation := p.operation, base, columns, orderBy,
      cursorMode := p.cursorMode, fingerprint := Fingerprint.of base.text base.values columns,
      generation }

end CheckedPlan

def PlanById.compile? (c : Catalog) (p : PlanById) : Option CompiledQuery :=
  (p.lookUp? c).bind (·.compile? c.generation)

/-- The tests of the branch at a position, if the keys and the values go so far: ties on the keys
before, and a place after the value of the key, where a row can have one. -/
def branchAt? (keys : List OrderKey) (values : List Param) (i : Nat) :
    Option (Option (List (KeyTest Param))) := do
  let key ← keys[i]?
  let value ← values[i]?
  let ties := ((keys.take i).zip values).map fun k => k.1.tied k.2
  some ((key.after value).map fun test => ties ++ [test])

/-- The branches of a keyset predicate, each made by its position. -/
def branchesByPosition? (keys : List OrderKey) (values : List Param) :
    Option (List (List (KeyTest Param))) :=
  ((List.range keys.length).mapM (branchAt? keys values)).map (·.filterMap id)

/-- Looking up what each was replaced by gives them back. -/
theorem mapM_map_eq_some {α β : Type} {f : α → β} {look : β → Option α} {xs : List α}
    (h : ∀ x ∈ xs, look (f x) = some x) : (xs.map f).mapM look = some xs := by
  rw [List.mapM_map, mapM_eq_some_map (f := look ∘ f) (g := id) h, List.map_id]

theorem Entity.optionalField?_id {e : Entity} (hid : ∀ f ∈ e.fields, e.field? f.id = some f)
    {target : Option Field} (h : ∀ f, target = some f → f ∈ e.fields) :
    e.optionalField? (target.map (·.id)) = some target := by
  cases target with
  | none => rfl
  | some f =>
    rw [Option.map_some, optionalField?, hid f (h f rfl)]
    rfl

/-- The time field is found by its id, or there is none. -/
theorem Entity.optionalField?_timeFieldId {e : Entity}
    (h : ∀ id, e.timeFieldId = some id → (e.field? id).isSome = true) :
    e.optionalField? e.timeFieldId = some e.timeField := by
  rw [timeField]
  cases hid : e.timeFieldId with
  | none => rfl
  | some id =>
    obtain ⟨f, hf⟩ := Option.isSome_iff_exists.mp (h id hid)
    rw [optionalField?, Option.bind_some, hf]
    rfl

namespace CheckedPlan

namespace IsAccepted

variable {p : CheckedPlan} (hp : p.IsAccepted)

include hp

/-- Ids that are positions lead back to the plan. -/
theorem lookUp?_byId {c : Catalog} (hentity : c.entity? p.entity.id = some p.entity)
    (hid : ∀ f ∈ p.entity.fields, p.entity.field? f.id = some f) :
    p.byId.lookUp? c = some p := by
  have hfilters : p.byId.filters.mapM (fun f => (p.entity.field? f.1).map (⟨·, f.2⟩)) =
      some p.filters :=
    mapM_map_eq_some fun f hf => by
      simp only [hid f.field (hp.filter_mem f hf), Option.map_some]
  have horderBy : p.byId.orderBy.mapM (fun o => (o.1.lookUp? p.entity).map (⟨·, o.2⟩)) =
      some p.orderBy := by
    refine mapM_map_eq_some fun o ho => ?_
    obtain ⟨target, direction⟩ := o
    cases target with
    | field f =>
      have hf : f ∈ p.entity.fields := hp.shown_mem (hp.order_shown _ ho f rfl)
      simp only [OrderTarget.byId, TargetById.lookUp?, hid f hf, Option.map_some]
    | aggregate index => rfl
  have hgroupBy : p.byId.groupBy.mapM p.entity.field? = some p.groupBy :=
    mapM_map_eq_some fun f hf => hid f (hp.group_mem f hf)
  have haggregations : p.byId.aggregations.mapM (·.lookUp? p.entity) = some p.aggregations := by
    refine mapM_map_eq_some fun a ha => ?_
    rw [AggregationById.lookUp?, CheckedAggregation.byId,
      Entity.optionalField?_id hid (hp.target_mem a ha)]
    rfl
  rw [PlanById.lookUp?]
  show (c.entity? p.entity.id >>= _) = _
  rw [hentity]
  simp only [Option.bind_eq_bind, Option.bind_some, hfilters, horderBy, hgroupBy, haggregations]
  rfl

theorem orderKey?_eq {o : CheckedOrder} (ho : o ∈ p.orderBy) (generation : UInt64) :
    p.orderKey? (p.compile generation).columns o =
      some (p.orderKey (p.compile generation).columns o) := by
  have hfound := findIdx?_eq_columnIndex (hp.targetName_mem ho generation)
  rw [orderKey?, orderKey]
  cases htarget : o.target with
  | field f =>
    rw [htarget, targetName] at hfound
    simp only [hfound]
    rfl
  | aggregate index =>
    have hindex := List.getElem?_eq_getElem (hp.order_aggregated o ho index htarget)
    rw [htarget, targetName, hindex, Option.map_some, Option.getD_some] at hfound
    simp only [hindex, Option.map_some, Option.getD_some, Option.bind_eq_bind, Option.bind_some,
      hfound]

/-- Nothing is missing where the time field is one of the fields. -/
theorem compile?_eq (htime : p.entity.optionalField? p.entity.timeFieldId = some p.entity.timeField)
    (generation : UInt64) : p.compile? generation = some (p.compile generation) := by
  have horderBy : p.orderBy.mapM (p.orderKey? (p.outputs.map (·.2))) =
      some (p.orderBy.map (p.orderKey (p.outputs.map (·.2)))) :=
    mapM_eq_some_map fun o ho => hp.orderKey?_eq ho generation
  rw [compile?, htime, horderBy]
  rfl

end IsAccepted

end CheckedPlan

theorem keysetBranches_eq_filterMap (before rest : List (OrderKey × Param)) :
    keysetBranches (before.map fun k => k.1.tied k.2) rest =
      (List.range rest.length).filterMap fun i => rest[i]?.bind fun k =>
        (k.1.after k.2).map fun test =>
          ((before ++ rest.take i).map fun k => k.1.tied k.2) ++ [test] := by
  induction rest generalizing before with
  | nil => rfl
  | cons k rest ih =>
    have hlater := ih (before ++ [k])
    rw [List.map_append, List.map_singleton] at hlater
    have hshift : (fun i => (k :: rest)[i]?.bind fun j => (j.1.after j.2).map fun test =>
        ((before ++ (k :: rest).take i).map fun k => k.1.tied k.2) ++ [test]) ∘ Nat.succ =
        fun i => rest[i]?.bind fun j => (j.1.after j.2).map fun test =>
          ((before ++ [k] ++ rest.take i).map fun k => k.1.tied k.2) ++ [test] := by
      funext i
      simp
    rw [keysetBranches, hlater, List.length_cons, List.range_succ_eq_map, List.filterMap_cons,
      List.filterMap_map, hshift]
    cases hafter : k.1.after k.2 with
    | none => simp [hafter]
    | some test => simp [hafter]

/-- With a value for every key, the branches made by position are those of the pairs. -/
theorem branchesByPosition?_eq {keys : List OrderKey} {values : List Param}
    (h : values.length = keys.length) :
    branchesByPosition? keys values = some (keysetBranches [] (keys.zip values)) := by
  have hlength : (keys.zip values).length = keys.length := by
    rw [List.length_zip, h, Nat.min_self]
  have hbranch : ∀ i ∈ List.range keys.length, branchAt? keys values i =
      some ((keys.zip values)[i]?.bind fun k => (k.1.after k.2).map fun test =>
        ((keys.zip values).take i).map (fun k => k.1.tied k.2) ++ [test]) := by
    intro i hi
    have hkey : i < keys.length := List.mem_range.mp hi
    have hvalue : i < values.length := h ▸ hkey
    -- the pairs before a key come of the keys before it
    have hties : (keys.take i).zip values = (keys.zip values).take i := by
      have hmin : min (keys.take i).length values.length = i := by
        rw [List.length_take]
        omega
      rw [List.zip_eq_zip_take_min, hmin, List.take_take, Nat.min_self,
        List.zip_eq_zipWith, List.zip_eq_zipWith, List.take_zipWith]
    have hpair : (keys.zip values)[i]? = some (keys[i], values[i]) := by
      rw [List.getElem?_eq_getElem (hlength.symm ▸ hkey), List.getElem_zip]
    rw [branchAt?, List.getElem?_eq_getElem hkey, List.getElem?_eq_getElem hvalue, hties, hpair]
    rfl
  rw [branchesByPosition?, mapM_eq_some_map hbranch, Option.map_some]
  have hpairs := keysetBranches_eq_filterMap [] (keys.zip values)
  rw [List.map_nil] at hpairs
  rw [hpairs, hlength, List.filterMap_map]
  rfl

/-- Whatever the plan refers to is there, and fits what it is used for. -/
structure CheckedPlan.IsFoundIn (p : CheckedPlan) (c : Catalog) : Prop where
  ids_found : p.byId.lookUp? c = some p
  indexes_lt : ∀ o ∈ p.orderBy, ∀ i, o.target = .aggregate i → i < p.aggregations.length
  scalars_fit : ∀ f ∈ p.filters, f.predicate.isOfKind f.field.kind = true
  range_fits : p.timeRange.isSome = true →
    ∃ f, p.entity.timeField = some f ∧ f.kind = .timestamp
  groups_nodup : (p.groupBy.map (·.id)).Nodup

/-- Nothing of the plan is lost or mixed up in the query: columns have different names, so that a record
has the value of each; a key stands where the column has the name that the plan orders by; and there is
a value for every key in a cursor that is accepted. -/
structure CheckedPlan.IsKeptIn (p : CheckedPlan) (q : CompiledQuery) : Prop where
  columns_nodup : (q.columns.map (·.name)).Nodup
  records_whole : ∀ (cells : List Cell) (row : Row), cells.length = q.columns.length →
    decodeRow q.columns cells = .ok row →
    ∀ (i : Nat) (column : OutputColumn) (c : Cell), q.columns[i]? = some column →
      cells[i]? = some c →
      ∃ v, c.toJson? column.kind = some v ∧ row.lookup column.name = some v
  keys_placed : ∀ (i : Nat) (o : CheckedOrder), p.orderBy[i]? = some o →
    ∃ key, q.orderBy[i]? = some key ∧
      q.columns.findIdx? (·.name == p.targetName o.target) = some key.column
  keyset_in_range : ∀ values : List Param, q.accepts (.keyset values) = true →
    ∃ branches, branchesByPosition? q.orderBy values = some branches ∧
      ∀ pageSize, q.page? pageSize (.keyset values) =
        some { q.base with
          keyset := some branches, limit := some (CompiledQuery.windowLimit pageSize) }

namespace Plan

variable {source : String} {d : CatalogDefinition} {g : UInt64} {c : Catalog} {policy : LimitPolicy}
  {plan : Plan} {p : CheckedPlan}

theorem pos_of_checkLimit {limit : Option Int64} {n : UInt32} (hdefault : 1 ≤ policy.default)
    (h : checkLimit policy limit = .ok n) : 1 ≤ n := by
  cases limit with
  | none =>
    cases h
    exact hdefault
  | some m =>
    rw [checkLimit] at h
    split at h
    next hm =>
      cases h
      have hmax : policy.max.toNat < UInt32.size := policy.max.toNat_lt
      rw [UInt32.le_iff_toNat_le, UInt32.toNat_ofNat_of_lt' (by omega)]
      show 1 ≤ m.toInt.toNat
      omega
    next => cases h

section Stages

variable (hc : Catalog.ofDefinition source d g = .ok c) (hp : plan.check c policy = .ok p)

include hc

theorem optionalField?_timeFieldId_of_mem {e : Entity} (he : e ∈ c.entities) :
    e.optionalField? e.timeFieldId = some e.timeField := by
  obtain ⟨-, rfl⟩ := Catalog.ofDefinition_eq_ok_iff.mp hc
  obtain ⟨i, hi, rfl⟩ := List.mem_mapIdx.mp he
  exact Entity.optionalField?_timeFieldId fun id => Entity.isSome_field?_timeFieldId

include hp

theorem isFoundIn_of_check : p.IsFoundIn c := by
  obtain ⟨haccepted, hmem⟩ := isAccepted_of_check hc hp
  obtain ⟨functions, r, hstages⟩ := stages_of_check hp
  have hfiltered := isFiltered_of_check hc hp
  have hindexed := isIndexed_of_ofDefinition hc hmem
  exact
    { ids_found := haccepted.lookUp?_byId ((Catalog.mirrors_of_ofDefinition hc).entity?_id _ hmem)
        fun f hf => getElem?_id (fun i f => Catalog.id_of_ofDefinition hc hmem) hf
      indexes_lt := haccepted.order_aggregated
      scalars_fit := hfiltered.filter_kind
      range_fits := by
        intro hrange
        obtain ⟨f, hf⟩ := Option.isSome_iff_exists.mp (hfiltered.timeField_isSome hrange)
        exact ⟨f, hf, hfiltered.entity_wellFormed.timeField_kind f hf⟩
      groups_nodup := by
        rw [hstages.groupBy, groups_nodup_iff hstages.resolved hindexed]
        exact (groups_decides hstages.resolved hindexed).ok_iff.mp ⟨(), hstages.groups⟩ }

theorem isKeptIn_of_check (generation : UInt64) : p.IsKeptIn (p.compile generation) := by
  obtain ⟨haccepted, -⟩ := isAccepted_of_check hc hp
  have hnames := columns_nodup_of_check hc hp generation
  constructor
  case columns_nodup => exact hnames
  case records_whole =>
    intro cells row hlength hrow i column c hcolumn hcell
    -- a row of values under its columns is a row of pairs
    have hcolumns : ((p.compile generation).columns.zip cells).map Prod.fst =
        (p.compile generation).columns := List.map_fst_zip hlength.ge
    have hcells : ((p.compile generation).columns.zip cells).map Prod.snd = cells :=
      List.map_snd_zip hlength.le
    have hpair : (column, c) ∈ (p.compile generation).columns.zip cells :=
      List.mem_of_getElem? (List.getElem?_zip_eq_some.mpr ⟨hcolumn, hcell⟩)
    have hpairs : decodeRow (((p.compile generation).columns.zip cells).map Prod.fst)
        (((p.compile generation).columns.zip cells).map Prod.snd) = .ok row := by
      rw [hcolumns, hcells]
      exact hrow
    have hdifferent : (((p.compile generation).columns.zip cells).map fun x => x.1.name).Nodup := by
      rw [← hcolumns, List.map_map] at hnames
      exact hnames
    exact lookup_of_decodeRow_eq_ok Prod.fst hdifferent hpairs hpair
  case keys_placed =>
    intro i o ho
    refine ⟨p.orderKey (p.compile generation).columns o, ?_, ?_⟩
    · show (p.orderBy.map (p.orderKey (p.compile generation).columns))[i]? = _
      rw [List.getElem?_map, ho]
      rfl
    · rw [CheckedPlan.findIdx?_eq_columnIndex
        (haccepted.targetName_mem (List.mem_of_getElem? ho) generation),
        CheckedPlan.orderKey_column]
  case keyset_in_range =>
    intro values haccepts
    have hlength : values.length = (p.compile generation).orderBy.length :=
      (CompiledQuery.accepts_keyset_iff.mp haccepts).2
    refine ⟨_, branchesByPosition?_eq hlength, fun pageSize => ?_⟩
    rw [CompiledQuery.page?, if_pos haccepts]

end Stages

/-- Whatever an accepted plan refers to is there, and compiling it with nothing to fall back on gives
its query, in which nothing is lost or mixed up. -/
theorem compile?_byId_of_check (hc : Catalog.ofDefinition source d g = .ok c)
    (hp : plan.check c policy = .ok p) :
    p.IsFoundIn c ∧ (1 ≤ policy.default → 1 ≤ p.limit) ∧
      p.byId.compile? c = some (p.compile c.generation) ∧ p.IsKeptIn (p.compile c.generation) := by
  obtain ⟨haccepted, hmem⟩ := isAccepted_of_check hc hp
  obtain ⟨functions, r, hstages⟩ := stages_of_check hp
  have hfound := isFoundIn_of_check hc hp
  refine ⟨hfound, fun hdefault => pos_of_checkLimit hdefault hstages.limit, ?_,
    isKeptIn_of_check hc hp c.generation⟩
  rw [PlanById.compile?, hfound.ids_found, Option.bind_some]
  exact haccepted.compile?_eq (optionalField?_timeFieldId_of_mem hc hmem) c.generation

end Plan

namespace Shop

/-- The orders of a day that are in one of two states, by state and id. -/
def ordersOfDay : Plan where
  entity := "Order"
  operation := "list"
  filters := [⟨"status", "in", .arr [.str "paid", .str "sent"]⟩]
  orderBy := [⟨"status", "desc"⟩, ⟨"id", "asc"⟩]
  timeRange := some ⟨some "2024-05-01", some "2024-05-02"⟩

def day : CheckedRange := ⟨⟨1714521600, 0⟩, ⟨1714608000, 0⟩⟩

def ordersOfDayChecked : CheckedPlan where
  entity := order
  operation := .list
  filters := [⟨status, .isIn [.text "paid", .text "sent"]⟩]
  orderBy := [⟨.field status, .desc⟩, ⟨.field orderId, .asc⟩]
  groupBy := []
  aggregations := []
  timeRange := some day
  limit := 100
  requestId := none

/-- How many orders of a day are in each state, the most frequent first. -/
def ordersByStatus : Plan where
  entity := "Order"
  operation := "aggregate"
  orderBy := [⟨"n", "desc"⟩, ⟨"status", "asc"⟩]
  groupBy := ["status"]
  aggregations := [⟨"count", none, "n"⟩]
  timeRange := some ⟨some "2024-05-01", some "2024-05-02"⟩

def ordersByStatusChecked : CheckedPlan where
  entity := order
  operation := .aggregate
  filters := []
  orderBy := [⟨.aggregate 0, .desc⟩, ⟨.field status, .asc⟩]
  groupBy := [status]
  aggregations := [⟨.count, none, "n"⟩]
  timeRange := some day
  limit := 100
  requestId := none

theorem check_ordersOfDay : ordersOfDay.check catalog {} = .ok ordersOfDayChecked := by
  decide +kernel

theorem check_ordersByStatus : ordersByStatus.check catalog {} = .ok ordersByStatusChecked := by
  decide +kernel

/-- A list by a keyset, and groups by a count. -/
theorem compile?_byId_orders :
    ordersOfDayChecked.IsFoundIn catalog ∧ 1 ≤ ordersOfDayChecked.limit ∧
      ordersOfDayChecked.byId.compile? catalog = some (ordersOfDayChecked.compile 1) ∧
      ordersOfDayChecked.IsKeptIn (ordersOfDayChecked.compile 1) ∧
      (ordersOfDayChecked.compile 1).accepts (.keyset [.text "paid", .integer 7]) = true ∧
      ordersByStatusChecked.IsFoundIn catalog ∧
      ordersByStatusChecked.byId.compile? catalog = some (ordersByStatusChecked.compile 1) ∧
      ordersByStatusChecked.IsKeptIn (ordersByStatusChecked.compile 1) :=
  have hlist := Plan.compile?_byId_of_check ofDefinition_definition check_ordersOfDay
  have hgroups := Plan.compile?_byId_of_check ofDefinition_definition check_ordersByStatus
  ⟨hlist.1, hlist.2.1 (by decide), hlist.2.2.1, hlist.2.2.2, rfl, hgroups.1, hgroups.2.2⟩

end Shop

end CatalogQuery
