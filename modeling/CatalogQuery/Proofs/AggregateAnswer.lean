import CatalogQuery.Proofs.AggregatePlan
/-!
# Answers to plans for aggregates

Running the compiled statement of a plan for aggregates brings one record for every group of the rows
that the plan selects. The records are in the order of the keys, where each key goes by what is found
under its name: that is what the plan means just where no other result has the name for its label.
-/
namespace CatalogQuery

open Std

theorem Keyword.isAll_eq_false {name : String} (h : isReservedColumn name = false) :
    isAll name = false := by
  rw [isReservedColumn, isAmong, List.any_eq_false] at h
  simpa [isAll] using h "all" (by decide)

/-- A column whose name is no reserved word is counted. -/
theorem Output.source?_aggregate {f : AggregateFunction} {argument : Option String} (label : String)
    (h : ∀ name, argument = some name → Keyword.isReservedColumn name = false) :
    (aggregate f argument label).source? = argument := by
  cases f with
  | count =>
    cases argument with
    | none => rfl
    | some name => exact if_pos (congrArg (!·) (Keyword.isAll_eq_false (h name rfl)))
  | sum | avg | min | max => rfl

namespace CheckedPlan

namespace IsAccepted

variable {p : CheckedPlan} (hp : p.IsAccepted) (generation : UInt64)

include hp

theorem base_isAggregate (hoperation : p.operation = .aggregate) :
    (p.compile generation).base.IsAggregate where
  grouped := by
    have hne : p.aggregations ≠ [] := by
      rw [Ne, ← hp.operation_eq_list_iff, hoperation]
      decide
    obtain ⟨a, ha⟩ := List.exists_mem_of_ne_nil _ hne
    have hlabel : (p.compile generation).base.output.any (fun o => o.label?.isSome) = true := by
      rw [hp.base_output, List.any_append, List.any_map, List.any_map, Bool.or_eq_true]
      exact .inr (List.any_eq_true.mpr ⟨a, ha, rfl⟩)
    rw [Statement.isGrouped, hlabel, Bool.or_true]
  limit_none := rfl
  offset_none := rfl

theorem reservedWord?_eq_none (hnames : p.entity.IsUnreserved) :
    (p.compile generation).base.reservedWord? = none := by
  rw [Statement.reservedWord?_eq_none_iff]
  refine ⟨hnames.table, fun name hname => ?_, fun name hname => ?_⟩
  · obtain ⟨f, hf, rfl⟩ := hp.columnNames_mem generation hname
    exact hnames.column f hf
  · cases hname

variable {t : Table} (hnames : p.entity.IsUnreserved)

include hnames

theorem value?_aggregate {a : CheckedAggregation} (ha : a ∈ p.aggregations) (g : RowGroup) :
    g.value? t (.aggregate a.function (a.target.map (·.column)) a.label) = a.result? t g.rows := by
  rw [RowGroup.value?, Output.source?_aggregate, CheckedAggregation.result?]
  intro name hname
  obtain ⟨f, hf, rfl⟩ := Option.map_eq_some_iff.mp hname
  exact hnames.column f (hp.target_mem a ha f hf)

/-- Where no sum overflows, every result column has a value. -/
theorem value?_isSome {g : RowGroup}
    (hsums : ∀ a ∈ p.aggregations, (a.result? t g.rows).isSome = true) {o : Output}
    (ho : o ∈ (p.compile generation).base.output) : (g.value? t o).isSome = true := by
  rw [hp.base_output] at ho
  rcases List.mem_append.mp ho with ho | ho
  · obtain ⟨f, -, rfl⟩ := List.mem_map.mp ho
    rfl
  · obtain ⟨a, ha, rfl⟩ := List.mem_map.mp ho
    rw [hp.value?_aggregate hnames ha]
    exact hsums a ha

theorem cell_aggregate {a : CheckedAggregation} (ha : a ∈ p.aggregations) (g : RowGroup) :
    g.cell t (.aggregate a.function (a.target.map (·.column)) a.label) = a.result t g.rows := by
  rw [RowGroup.cell, hp.value?_aggregate hnames ha, CheckedAggregation.result]

/-- A key goes by what is found under its name. -/
theorem orderValue_base (g : RowGroup) {o : CheckedOrder} (ho : o ∈ p.orderBy)
    (columns : List OutputColumn) :
    ((p.compile generation).base.map Cell.ofParam).orderValue t
        (((p.compile generation).base.map Cell.ofParam).recordOfGroup t g)
        (p.orderKey columns o).term =
      p.targetValue t g (p.found o.target) := by
  have hindex : ((p.compile generation).base.map Cell.ofParam).labelIndex?
      (p.orderKey columns o).term = (p.labelled? (p.keyName o.target)).map (· + p.shown.length) := by
    rw [← name_term_orderKey p columns o]
    exact hp.labelIndex?_base generation _
  have hcells : (((p.compile generation).base.map Cell.ofParam).recordOfGroup t g).cells =
      p.shown.map (fun f => t.value g.row f.column) ++ p.aggregations.map (·.result t g.rows) := by
    show (p.compile generation).base.output.map (g.cell t) = _
    rw [hp.base_output, List.map_append, List.map_map, List.map_map]
    congr 1
    exact List.map_congr_left fun a ha => hp.cell_aggregate hnames ha g
  rw [Statement.orderValue, hindex, found]
  cases hlabel : p.labelled? (p.keyName o.target) with
  | some i =>
    show List.getD _ _ _ = _
    rw [hcells, List.getD_eq_getElem?_getD, List.getElem?_append_right (by simp), List.getElem?_map,
      List.length_map, Nat.add_sub_cancel, targetValue]
  | none =>
    show t.value g.row _ = _
    rw [name_term_orderKey]
    cases htarget : o.target with
    | field f => rfl
    | aggregate i =>
      have hsome := hp.labelled?_isSome ho htarget
      rw [hlabel] at hsome
      cases hsome

theorem orderOfGroups_base (g h : RowGroup) :
    ((p.compile generation).base.map Cell.ofParam).orderOfGroups t g h =
      p.groupOrder t p.found g h := by
  have horder : ((p.compile generation).base.map Cell.ofParam).orderBy =
      p.orderBy.map fun o => ((p.orderKey (p.compile generation).columns o).term, o.direction) := by
    show (p.orderBy.map _).map _ = _
    rw [List.map_map]
    exact List.map_congr_left fun o _ => congrArg (_, ·) (p.direction_orderKey _ o)
  rw [Statement.orderOfGroups, Statement.orderRecords_eq_keyOrder, horder]
  exact keyOrder_map_eq_foldr _ (fun o ho => hp.orderValue_base generation hnames g ho _)
    fun o ho => hp.orderValue_base generation hnames h ho _

/-- The record of a group of stored rows in which no sum overflows. -/
theorem decodeRow_group (hoperation : p.operation = .aggregate)
    (hnodup : ((p.compile generation).columns.map (·.name)).Nodup) (ht : p.entity.IsTypedIn t)
    {g : RowGroup} (hrows : ∀ row ∈ g.rows, row ∈ t.numberedRows)
    (hrow : p.groupBy ≠ [] → g.rows ≠ [])
    (hsums : ∀ a ∈ p.aggregations, (a.result? t g.rows).isSome = true) :
    decodeRow (p.compile generation).columns ((p.compile generation).base.output.map (g.cell t)) =
      .ok (p.groupRecord t g) := by
  have hshown : p.shown = p.groupBy := by rw [shown, hoperation]
  have hfield : ∀ f ∈ p.groupBy, f.kind.fits (t.value g.row f.column) = true := fun f hf =>
    ht.fits f (hp.group_mem f hf) _ (hrows _ (g.row_mem (hrow (List.ne_nil_of_mem hf))))
  have hresult : ∀ a ∈ p.aggregations,
      (a.result t g.rows).toJson? a.kind = some (a.kind.resultJson (a.result t g.rows)) :=
    fun a ha => CheckedAggregation.toJson?_result
      (fun f hf row hmem => ht.fits f (hp.target_mem a ha f hf) row (hrows row hmem)) (hsums a ha)
  have hrecord : p.outputs.map (fun x => (x.2.name, x.2.kind.resultJson (g.cell t x.1))) =
      p.groupBy.map (fun f => (f.name, f.kind.json (t.value g.row f.column))) ++
        p.aggregations.map fun a => (a.label, a.kind.resultJson (a.result t g.rows)) := by
    rw [hp.outputs_eq, hshown, List.map_append, List.map_map, List.map_map]
    congr 1
    · exact List.map_congr_left fun f hf =>
        congrArg (f.name, ·) (ValueKind.resultJson_of_fits (hfield f hf))
    · exact List.map_congr_left fun a ha =>
        congrArg (fun c => (a.label, a.kind.resultJson c)) (hp.cell_aggregate hnames ha g)
  show decodeRow (p.outputs.map (·.2)) ((p.outputs.map (·.1)).map (g.cell t)) = _
  rw [List.map_map, groupRecord, ← hrecord]
  apply decodeRow_eq_ok (fun x : Output × OutputColumn => x.2)
  · show (p.outputs.map _).Nodup
    rw [← Function.comp_def, ← List.map_map]
    exact hnodup
  · intro x hx
    rw [hp.outputs_eq, hshown] at hx
    rcases List.mem_append.mp hx with hx | hx
    · obtain ⟨f, hf, rfl⟩ := List.mem_map.mp hx
      show (t.value g.row f.column).toJson? f.kind = some (f.kind.resultJson _)
      rw [Cell.toJson?_of_fits (hfield f hf), ← ValueKind.resultJson_of_fits (hfield f hf)]
      rfl
    · obtain ⟨a, ha, rfl⟩ := List.mem_map.mp hx
      have hcell := hp.cell_aggregate (t := t) hnames ha g
      show (g.cell t (.aggregate a.function (a.target.map (·.column)) a.label)).toJson? a.kind =
        some (a.kind.resultJson (g.cell t (.aggregate a.function (a.target.map (·.column)) a.label)))
      rw [hcell]
      exact hresult a ha

end IsAccepted

/-- The result column of a key is that of what the plan is ordered by. -/
theorem IsAccepted.column_orderKey {p : CheckedPlan} (hp : p.IsAccepted) (generation : UInt64)
    {o : CheckedOrder} (ho : o ∈ p.orderBy) :
    (p.compile generation).columns[(p.orderKey (p.compile generation).columns o).column]?.map
      (·.name) = some (p.targetName o.target) := by
  rw [orderKey_column]
  exact name_getElem?_columnIndex (hp.targetName_mem ho generation)

/-- No sum over a group of the plan overflows. -/
theorem result?_isSome {p : CheckedPlan} {t : Table} (hsums : p.SumsFit t)
    {groups : List (List StoredRow)} (hparts : Parts p.groupColumns t (p.admittedRows t) groups)
    {rows : List StoredRow} (hrows : rows ∈ groups) {a : CheckedAggregation}
    (ha : a ∈ p.aggregations) : (a.result? t rows).isSome = true := by
  by_cases hnil : rows = []
  · subst hnil
    apply Cell.aggregate?_isSome
    intro
    cases a.target <;> rfl
  · obtain ⟨row, hrow⟩ := List.exists_mem_of_ne_nil rows hnil
    rw [hparts.eq_filter rows hrows row hrow]
    by_cases hsum : a.function = .sum
    · exact hsums a ha hsum row (hparts.subset hrows hrow)
    · exact Cell.aggregate?_isSome fun h => absurd h hsum

end CheckedPlan

/-- The text and the parameters of an accepted plan for aggregates are read as its statement, and
running this brings one record for every group of the rows that the plan admits: what it is grouped by,
and each result under its label. The records are in the order of what is found under the names of the
keys, and this is what the plan means, whose result column the key points at, just where no other result
has the name for its label. -/
theorem CheckedPlan.fetch_aggregate {source : String} {d : CatalogDefinition} {g : UInt64}
    {c : Catalog} {policy : LimitPolicy} {plan : Plan} {p : CheckedPlan} {store : Store} {t : Table}
    {generation timeoutMs : UInt64} (hc : Catalog.ofDefinition source d g = .ok c)
    (hplan : plan.check c policy = .ok p) (hoperation : p.operation = .aggregate)
    (hnames : p.entity.IsUnreserved) (hlimits : (p.compile generation).base.IsWithinLimits timeoutMs)
    (hstore : store.Serves p.entity.table t) (ht : p.entity.IsTypedIn t)
    (hcount : t.rows.length < pow2 63) (hsums : p.SumsFit t) (now : Int) :
    (p.entity.IsStoredIn t → p.HasNoZero t →
      p.admittedRows t = t.numberedRows.filter fun row => p.selects (t.value row)) ∧
    ((p.compile generation).columns.map (·.name)).Nodup ∧
    (∀ o ∈ p.orderBy,
      (p.compile generation).columns[(p.orderKey (p.compile generation).columns o).column]?.map
        (·.name) = some (p.targetName o.target) ∧
      (p.found o.target = o.target ↔ p.IsFoundFirst o.target)) ∧
    ∃ groups : List RowGroup,
      Parts p.groupColumns t (p.admittedRows t) (groups.map (·.rows)) ∧
      groups.Pairwise (fun g h => p.groupOrder t p.found g h ≠ .gt) ∧
      ((∀ o ∈ p.orderBy, p.IsFoundFirst o.target) →
        groups.Pairwise fun g h => p.groupOrder t id g h ≠ .gt) ∧
      Statement.ofText? (p.compile generation).base.text (p.compile generation).base.values =
        some (p.compile generation).base ∧
      store.fetch now timeoutMs (p.compile generation).base (p.compile generation).columns =
        .ok (groups.map (p.groupRecord t)) := by
  have hp := (Plan.isAccepted_of_check hc hplan).1
  have hnodup := Plan.columns_nodup_of_check hc hplan generation
  have hfiltered := Plan.isFiltered_of_check hc hplan
  have hrows : (p.admittedRows t).Sublist t.numberedRows := List.filter_sublist
  have hparts : Parts p.groupColumns t (p.admittedRows t)
      (((p.compile generation).base.map Cell.ofParam).groups t (p.admittedRows t)) :=
    ((p.compile generation).base.map Cell.ofParam).parts_groups t hrows hcount
  have hordered : Parts p.groupColumns t (p.admittedRows t)
      ((((p.compile generation).base.map Cell.ofParam).orderedGroups t (p.admittedRows t)).map
        (·.rows)) :=
    ((p.compile generation).base.map Cell.ofParam).parts_orderedGroups hrows hcount
  have hsorted : (((p.compile generation).base.map Cell.ofParam).orderedGroups t
      (p.admittedRows t)).Pairwise fun g h => p.groupOrder t p.found g h ≠ .gt := by
    refine (Statement.pairwise_orderedGroups _ t _).imp fun {g h} hgh => ?_
    rw [← hp.orderOfGroups_base generation hnames]
    exact hgh
  refine ⟨fun ht hzero => hfiltered.admittedRows_eq ht hzero.stored hzero.patterns, hnodup,
    fun o ho => ⟨hp.column_orderKey generation ho, hp.found_eq_self_iff ho⟩, _, hordered, hsorted,
    fun hfirst => ?_, (hp.base_isPlain generation).ofText?_text, ?_⟩
  · rw [← groupOrder_congr fun o ho => (hp.found_eq_self_iff ho).mpr (hfirst o ho)]
    exact hsorted
  · rw [Store.fetch_groups now _ hstore (hp.base_isAggregate generation hoperation)
      (hp.reservedWord?_eq_none generation hnames) hlimits
      (hp.stores_of_mem_columnNames generation ht.stores) (p.matching_compile generation t)]
    · apply decodeRows_eq_ok
      intro g hg
      have hmem := List.mem_map_of_mem (f := RowGroup.rows) hg
      apply hp.decodeRow_group generation hnames hoperation hnodup ht
      · intro row hrow
        exact hrows.subset (hordered.subset hmem hrow)
      · intro hgroup hnil
        rw [hnil] at hmem
        exact hordered.ne_nil (by simpa [groupColumns] using hgroup) hmem
      · intro a ha
        exact result?_isSome hsums hordered hmem ha
    · intro rows hrows o ho
      exact hp.value?_isSome generation hnames (fun a ha => result?_isSome hsums hparts hrows ha) ho

namespace Sales

def definition : CatalogDefinition where
  entities :=
    [{ name := "Sale", table := "sale",
       fields :=
        [{ name := "region", column := "region", kind := .string },
         { name := "amount", column := "amount", kind := .number }] }]

def entity : Entity where
  id := 0
  name := "Sale"
  table := "sale"
  fields :=
    [{ id := 0, name := "region", column := "region", kind := .string,
       operators := ValueKind.string.defaultOperators, unique := false, nullable := true },
     { id := 1, name := "amount", column := "amount", kind := .number,
       operators := ValueKind.number.defaultOperators, unique := false, nullable := true }]
  requiresTimeRange := false
  timeFieldId := none

def catalog : Catalog where
  generation := 1
  entities := [entity]

theorem ofDefinition_definition : Catalog.ofDefinition "sales" definition 1 = .ok catalog := by
  decide

/-- The total of every region under the name of the region with a capital, in the order of the
regions. -/
def plan : Plan :=
  (((Plan.aggregate "Sale").addGroup "region").addAggregation "sum" (some "amount") "Region").addOrder
    "region" "asc"

def checked : CheckedPlan where
  entity := entity
  operation := .aggregate
  filters := []
  orderBy := [⟨.field entity.fields[0], .asc⟩]
  groupBy := [entity.fields[0]]
  aggregations := [⟨.sum, some entity.fields[1], "Region"⟩]
  timeRange := none
  limit := 100
  requestId := none

theorem check_plan : plan.check catalog {} = .ok checked := by decide

def table : Table where
  name := "sale"
  columns := ["region", "amount"]
  rows := [[.text "north", .integer 1], [.text "south", .integer 2], [.text "north", .integer 5]]

def store : Store := { tables := [table] }

theorem isUnreserved : entity.IsUnreserved where
  table := by decide
  column := by decide

theorem isWithinLimits : (checked.compile 1).base.IsWithinLimits 5000 where
  time := by decide
  size := by decide
  pattern := by decide

theorem serves : store.Serves "sale" table where
  free := rfl
  readable := rfl
  found := by decide
  ends := rfl

theorem isTypedIn : entity.IsTypedIn table where
  stores := by decide
  fits := by decide

theorem sumsFit : checked.SumsFit table := by
  unfold CheckedPlan.SumsFit
  decide +kernel

/-- Under the name of the region the store finds the total, so that the records of the regions come in
the order of their totals. -/
theorem fetch_totals :
    checked.found (.field entity.fields[0]) = .aggregate 0 ∧
    ∃ groups : List RowGroup,
      Parts ["region"] table table.numberedRows (groups.map (·.rows)) ∧
      groups.Pairwise (fun g h =>
        (checked.targetValue table g (.aggregate 0)).order
          (checked.targetValue table h (.aggregate 0)) ≠ .gt) ∧
      store.fetch 0 5000 (checked.compile 1).base (checked.compile 1).columns =
        .ok (groups.map (checked.groupRecord table)) := by
  have hfound : checked.found (.field entity.fields[0]) = .aggregate 0 := by decide
  obtain ⟨-, -, -, groups, hparts, hsorted, -, -, hfetch⟩ :=
    CheckedPlan.fetch_aggregate ofDefinition_definition check_plan rfl isUnreserved isWithinLimits
      serves isTypedIn (by decide) sumsFit 0
  have hadmitted : checked.admittedRows table = table.numberedRows := by decide
  rw [hadmitted] at hparts
  refine ⟨hfound, groups, hparts, hsorted.imp fun {g h} hgh => ?_, hfetch⟩
  intro hgt
  apply hgh
  show (Cell.orderIn .asc (checked.targetValue table g (checked.found (.field entity.fields[0])))
    (checked.targetValue table h (checked.found (.field entity.fields[0])))).then .eq = .gt
  rw [hfound, Cell.orderIn, hgt]
  rfl

end Sales

end CatalogQuery
