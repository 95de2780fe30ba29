import CatalogQuery.Plan.Check
import CatalogQuery.Proofs.AcceptedCatalog
/-!
# Accepted plans

What a plan that passes its checks gives: the fields it names are fields of its entity, the values
of a filter are of the kind of its field, and a time range comes with a time field. A plan for rows
has no groups and no aggregates, and is ordered by fields only; every plan is ordered by what is among
its result columns.
-/
namespace CatalogQuery

/-- Every result of a check comes from one of the elements. -/
theorem exists_of_mem_checkAll {α β ε : Type} {f : α → Except ε β} {xs : List α} {ys : List β}
    (h : checkAll f xs = .ok ys) : ∀ y ∈ ys, ∃ x ∈ xs, f x = .ok y := by
  induction xs generalizing ys with
  | nil =>
    cases h
    simp
  | cons x xs ih =>
    obtain ⟨y, hy, h⟩ := bind_ok h
    obtain ⟨rest, hrest, h⟩ := bind_ok h
    cases h
    intro z hz
    rcases List.mem_cons.mp hz with rfl | hz
    · exact ⟨x, List.mem_cons_self, hy⟩
    · obtain ⟨w, hw, hfw⟩ := ih hrest z hz
      exact ⟨w, List.mem_cons_of_mem _ hw, hfw⟩

/-- The scalar is one that a field of the kind is compared with. -/
def Scalar.isOfKind : ValueKind → Scalar → Bool
  | .string, .text _ => true
  | .number, .integer _ | .number, .real _ => true
  | .boolean, .bool _ => true
  | .timestamp, .timestamp _ => true
  | _, _ => false

theorem Scalar.isOfKind_of_ofJson? {kind : ValueKind} {v : Json} {s : Scalar}
    (h : ofJson? kind v = some s) : s.isOfKind kind = true := by
  unfold ofJson? at h
  split at h
  · cases h; rfl
  · cases h
    unfold ofInt
    split <;> rfl
  · cases h; rfl
  · cases h; rfl
  · obtain ⟨t, -, rfl⟩ := Option.map_eq_some_iff.mp h
    rfl
  · cases h

/-- The values of the predicate are of the kind, and a pattern stands for strings only. -/
def Predicate.isOfKind (kind : ValueKind) : Predicate → Bool
  | .compare _ v => v.isOfKind kind
  | .isIn vs => vs.all (Scalar.isOfKind kind)
  | .like _ => kind == .string
  | .between low high => low.isOfKind kind && high.isOfKind kind

/-- The value was read from JSON for the kind. -/
def Scalar.IsReadAs (kind : ValueKind) (s : Scalar) : Prop := ∃ v, ofJson? kind v = some s

/-- The values of the predicate were read for the kind, and its bounds are not reversed. -/
def Predicate.IsReadAs (kind : ValueKind) : Predicate → Prop
  | .compare _ v => v.IsReadAs kind
  | .isIn vs => ∀ v ∈ vs, v.IsReadAs kind
  | .like _ => kind = .string
  | .between low high => low.IsReadAs kind ∧ high.IsReadAs kind ∧ low.compare? high ≠ some .gt

theorem Scalar.IsReadAs.isOfKind {kind : ValueKind} {s : Scalar} (h : s.IsReadAs kind) :
    s.isOfKind kind = true := by
  obtain ⟨v, hv⟩ := h
  exact isOfKind_of_ofJson? hv

theorem Predicate.IsReadAs.isOfKind {kind : ValueKind} {p : Predicate} (h : p.IsReadAs kind) :
    p.isOfKind kind = true := by
  cases p with
  | compare op v => exact Scalar.IsReadAs.isOfKind h
  | isIn vs => exact List.all_eq_true.mpr fun v hv => (h v hv).isOfKind
  | like s => exact beq_iff_eq.mpr h
  | between low high =>
    obtain ⟨hlow, hhigh, -⟩ := h
    rw [Predicate.isOfKind, hlow.isOfKind, hhigh.isOfKind]
    rfl

theorem ValueKind.eq_string_of_supports_like {k : ValueKind} (h : k.supports .like = true) :
    k = .string := by
  cases k <;> simp [supports] at h ⊢

namespace Plan

theorem checkScalar_ok {f : Field} {v : Json} {s : Scalar} (h : checkScalar f v = .ok s) :
    s.IsReadAs f.kind := by
  unfold checkScalar at h
  split at h
  next hs =>
    cases h
    exact ⟨v, hs⟩
  next => cases h

theorem checkComparison_ok {f : Field} {op : Comparison} {v : Json} {p : Predicate}
    (h : checkComparison f op v = .ok p) : p.IsReadAs f.kind := by
  obtain ⟨s, hs, rfl⟩ := map_ok h
  exact checkScalar_ok hs

theorem checkList_ok {f : Field} {v : Json} {p : Predicate} (h : checkList f v = .ok p) :
    p.IsReadAs f.kind := by
  unfold checkList at h
  split at h
  next => cases h
  next items _ =>
    split at h
    next => cases h
    next =>
      obtain ⟨ss, hss, rfl⟩ := map_ok h
      intro s hs
      obtain ⟨v, -, hv⟩ := exists_of_mem_checkAll hss s hs
      exact checkScalar_ok hv
  next => cases h

theorem checkPattern_ok {f : Field} {v : Json} {p : Predicate} (h : checkPattern f v = .ok p) :
    ∃ s, p = .like s := by
  unfold checkPattern at h
  split at h
  next s => exact ⟨s, (Except.ok.inj h).symm⟩
  next => cases h

theorem checkBounds_ok {f : Field} {v : Json} {p : Predicate} (h : checkBounds f v = .ok p) :
    p.IsReadAs f.kind := by
  unfold checkBounds at h
  split at h
  next =>
    obtain ⟨low, hlow, h⟩ := bind_ok h
    obtain ⟨high, hhigh, h⟩ := bind_ok h
    split at h
    next => cases h
    next hordered =>
      cases h
      exact ⟨checkScalar_ok hlow, checkScalar_ok hhigh, hordered⟩
  next => cases h

theorem checkOperand_ok {f : Field} {o : Operator} {v : Json} {p : Predicate}
    (hf : f.kind.supports o = true) (h : checkOperand f o v = .ok p) : p.IsReadAs f.kind := by
  cases o with
  | eq | neq | gt | gte | lt | lte => exact checkComparison_ok h
  | isIn => exact checkList_ok h
  | like =>
    obtain ⟨s, rfl⟩ := checkPattern_ok h
    exact ValueKind.eq_string_of_supports_like hf
  | between => exact checkBounds_ok h

theorem checkFilter_ok {p : Filter × Field} {c : CheckedFilter}
    (hf : ∀ o, p.2.allows o = true → p.2.kind.supports o = true) (h : checkFilter p = .ok c) :
    c.field = p.2 ∧ c.predicate.IsReadAs c.field.kind := by
  unfold checkFilter at h
  split at h
  next => cases h
  next o _ =>
    split at h
    next hallows =>
      obtain ⟨pr, hpr, rfl⟩ := map_ok h
      exact ⟨rfl, checkOperand_ok (hf o hallows) hpr⟩
    next => cases h

theorem resolveField_mem {e : Entity} {name : String} {f : Field}
    (h : resolveField e name = .ok f) : f ∈ e.fields := by
  unfold resolveField at h
  split at h
  next hf =>
    cases h
    exact List.mem_of_find?_eq_some hf
  next => cases h

theorem resolve_filters_mem {p : Plan} {e : Entity} {operation : Operation} {r : Resolved}
    (h : p.resolve e operation = .ok r) : ∀ f ∈ r.filters, f ∈ e.fields := by
  obtain ⟨filters, hfilters, h⟩ := bind_ok h
  obtain ⟨_, -, h⟩ := bind_ok h
  obtain ⟨_, -, h⟩ := bind_ok h
  obtain ⟨_, -, h⟩ := bind_ok h
  cases h
  intro f hf
  obtain ⟨x, -, hx⟩ := exists_of_mem_checkAll hfilters f hf
  exact resolveField_mem hx

theorem resolve_orderBy_mem {p : Plan} {e : Entity} {r : Resolved}
    (h : p.resolve e .list = .ok r) : ∀ t ∈ r.orderBy, ∃ f ∈ e.fields, t = .field f := by
  obtain ⟨_, -, h⟩ := bind_ok h
  obtain ⟨_, -, h⟩ := bind_ok h
  obtain ⟨_, -, h⟩ := bind_ok h
  obtain ⟨orderBy, horder, h⟩ := bind_ok h
  cases h
  intro t ht
  obtain ⟨o, -, ho⟩ := exists_of_mem_checkAll horder t ht
  obtain ⟨f, hf, rfl⟩ := map_ok ho
  exact ⟨f, resolveField_mem hf, rfl⟩

theorem checkOrder_ok {operation : Operation} {groupBy : List Field} {p : Order × OrderTarget}
    {o : CheckedOrder} (h : checkOrder operation groupBy p = .ok o) : o.target = p.2 := by
  unfold checkOrder at h
  split at h
  next => cases h
  next =>
    split at h
    next hp =>
      cases h
      exact hp.symm
    next hp =>
      split at h
      next => cases h
      next =>
        cases h
        exact hp.symm

theorem checkTimeRange_ok {e : Entity} {range : Option TimeRange} {r : CheckedRange}
    (h : checkTimeRange e range = .ok (some r)) : e.timeField.isSome = true := by
  unfold checkTimeRange at h
  simp only at h
  split at h
  next => split at h <;> cases h
  next => cases h
  next => cases h
  next =>
    split at h
    next => cases h
    next hf => exact Option.isSome_iff_ne_none.mpr (by simpa using hf)

theorem checkShape_list {p : Plan} (h : p.checkShape .list = .ok ()) :
    p.aggregations = [] ∧ p.groupBy = [] := by
  simp only [checkShape] at h
  split at h
  next => cases h
  next ha =>
    split at h
    next => cases h
    next hg => exact ⟨by simpa using ha, by simpa using hg⟩

theorem checkOperation_list {p : Plan} {functions : List AggregateFunction}
    (h : p.checkOperation = .ok (.list, functions)) : p.aggregations = [] ∧ p.groupBy = [] := by
  unfold checkOperation at h
  split at h
  next => cases h
  next operation _ =>
    obtain ⟨u, hshape, h⟩ := bind_ok h
    obtain ⟨_, -, h⟩ := bind_ok h
    cases h
    exact checkShape_list hshape

end Plan

/-- The stages that a plan has passed, with the functions and the fields that were found. -/
structure Plan.Stages (plan : Plan) (c : Catalog) (policy : LimitPolicy) (p : CheckedPlan)
    (functions : List AggregateFunction) (r : Resolved) : Prop where
  entity : c.entityNamed? plan.entity = some p.entity
  operation : plan.checkOperation = .ok (p.operation, functions)
  resolved : plan.resolve p.entity p.operation = .ok r
  filters : checkAll checkFilter (plan.filters.zip r.filters) = .ok p.filters
  groups : checkGroups [] r.groupBy = .ok ()
  groupBy : p.groupBy = r.groupBy
  aggregations_eq : p.aggregations = ((plan.aggregations.zip functions).zip r.aggregations).map
    fun a => { function := a.1.2, target := a.2, label := a.1.1.label }
  aggregations :
    checkAggregations p.entity.name (r.groupBy.map (·.name)) p.aggregations = .ok ()
  orderBy :
    checkAll (checkOrder p.operation r.groupBy) (plan.orderBy.zip r.orderBy) = .ok p.orderBy
  timeRange : checkTimeRange p.entity plan.timeRange = .ok p.timeRange
  limit : checkLimit policy plan.limit = .ok p.limit

theorem Plan.stages_of_check {c : Catalog} {policy : LimitPolicy} {plan : Plan} {p : CheckedPlan}
    (hp : plan.check c policy = .ok p) :
    ∃ functions r, plan.Stages c policy p functions r := by
  rw [check] at hp
  split at hp
  next => cases hp
  next e he =>
    obtain ⟨⟨operation, functions⟩, hoperation, hp⟩ := bind_ok hp
    obtain ⟨r, hresolved, hp⟩ := bind_ok hp
    obtain ⟨filters, hfilters, hp⟩ := bind_ok hp
    obtain ⟨_, hgroups, hp⟩ := bind_ok hp
    obtain ⟨_, haggregations, hp⟩ := bind_ok hp
    obtain ⟨orderBy, horderBy, hp⟩ := bind_ok hp
    obtain ⟨timeRange, htimeRange, hp⟩ := bind_ok hp
    obtain ⟨limit, hlimit, hp⟩ := bind_ok hp
    cases hp
    exact ⟨functions, r, he, hoperation, hresolved, hfilters, hgroups, rfl, rfl, haggregations,
      horderBy, htimeRange, hlimit⟩

/-- What is true of every plan that was accepted for rows of an entity. -/
structure CheckedPlan.IsListing (p : CheckedPlan) : Prop where
  operation_eq : p.operation = .list
  entity_wellFormed : p.entity.WellFormed
  groupBy_nil : p.groupBy = []
  aggregations_nil : p.aggregations = []
  filter_mem : ∀ f ∈ p.filters, f.field ∈ p.entity.fields
  filter_kind : ∀ f ∈ p.filters, f.predicate.isOfKind f.field.kind = true
  order_mem : ∀ o ∈ p.orderBy, ∃ f ∈ p.entity.fields, o.target = .field f
  timeField_isSome : p.timeRange.isSome = true → p.entity.timeField.isSome = true

def CheckedPlan.shown (p : CheckedPlan) : List Field :=
  match p.operation with
  | .list => p.entity.fields
  | .aggregate => p.groupBy

/-- What is true of every plan that was accepted, for rows or for aggregates. -/
structure CheckedPlan.IsAccepted (p : CheckedPlan) : Prop where
  entity_wellFormed : p.entity.WellFormed
  operation_eq_list_iff : p.operation = .list ↔ p.aggregations = []
  filter_mem : ∀ f ∈ p.filters, f.field ∈ p.entity.fields
  group_mem : ∀ f ∈ p.groupBy, f ∈ p.entity.fields
  target_mem : ∀ a ∈ p.aggregations, ∀ f, a.target = some f → f ∈ p.entity.fields
  labels_plain : ∀ a ∈ p.aggregations, Text.isIdentifier a.label = true
  labels_nodup : (p.aggregations.map (·.label)).Nodup
  order_shown : ∀ o ∈ p.orderBy, ∀ f, o.target = .field f → f ∈ p.shown
  order_aggregated : ∀ o ∈ p.orderBy, ∀ i, o.target = .aggregate i → i < p.aggregations.length

/-- What is true of the filters and the time range of every plan that was accepted. -/
structure CheckedPlan.IsFiltered (p : CheckedPlan) : Prop where
  entity_wellFormed : p.entity.WellFormed
  filter_mem : ∀ f ∈ p.filters, f.field ∈ p.entity.fields
  filter_kind : ∀ f ∈ p.filters, f.predicate.isOfKind f.field.kind = true
  timeField_isSome : p.timeRange.isSome = true → p.entity.timeField.isSome = true

theorem CheckedPlan.IsListing.isFiltered {p : CheckedPlan} (hp : p.IsListing) : p.IsFiltered :=
  { hp with }

theorem CheckedPlan.IsListing.isAccepted {p : CheckedPlan} (hp : p.IsListing) : p.IsAccepted where
  entity_wellFormed := hp.entity_wellFormed
  operation_eq_list_iff := iff_of_true hp.operation_eq hp.aggregations_nil
  filter_mem := hp.filter_mem
  group_mem := by simp [hp.groupBy_nil]
  target_mem := by simp [hp.aggregations_nil]
  labels_plain := by simp [hp.aggregations_nil]
  labels_nodup := by simp [hp.aggregations_nil]
  order_shown := by
    intro o ho f hf
    obtain ⟨g, hg, htarget⟩ := hp.order_mem o ho
    rw [hf] at htarget
    cases htarget
    rw [shown, hp.operation_eq]
    exact hg
  order_aggregated := by
    intro o ho i hi
    obtain ⟨f, -, htarget⟩ := hp.order_mem o ho
    rw [hi] at htarget
    cases htarget

namespace Plan

variable {source : String} {d : CatalogDefinition} {g : UInt64} {c : Catalog} {policy : LimitPolicy}
  {plan : Plan} {p : CheckedPlan} (hc : Catalog.ofDefinition source d g = .ok c)
  (hp : plan.check c policy = .ok p)

include hc hp

theorem entity_wellFormed_of_check : p.entity.WellFormed := by
  obtain ⟨functions, r, hstages⟩ := stages_of_check hp
  exact Catalog.wellFormed_of_ofDefinition hc p.entity (List.mem_of_find?_eq_some hstages.entity)

theorem filter_of_check {f : CheckedFilter} (hf : f ∈ p.filters) :
    f.field ∈ p.entity.fields ∧ f.predicate.IsReadAs f.field.kind := by
  obtain ⟨functions, r, hstages⟩ := stages_of_check hp
  obtain ⟨x, hx, hxf⟩ := exists_of_mem_checkAll hstages.filters f hf
  have hmem : x.2 ∈ p.entity.fields :=
    resolve_filters_mem hstages.resolved x.2 (List.of_mem_zip hx).2
  obtain ⟨hfield, hread⟩ :=
    checkFilter_ok ((entity_wellFormed_of_check hc hp).supported x.2 hmem) hxf
  exact ⟨hfield ▸ hmem, hread⟩

theorem isFiltered_of_check : p.IsFiltered where
  entity_wellFormed := entity_wellFormed_of_check hc hp
  filter_mem := fun _ hf => (filter_of_check hc hp hf).1
  filter_kind := fun _ hf => (filter_of_check hc hp hf).2.isOfKind
  timeField_isSome := by
    intro hsome
    obtain ⟨functions, r, hstages⟩ := stages_of_check hp
    obtain ⟨range, hrange⟩ := Option.isSome_iff_exists.mp hsome
    exact checkTimeRange_ok (hrange ▸ hstages.timeRange)

theorem isListing_of_check (hop : p.operation = .list) : p.IsListing := by
  obtain ⟨functions, r, hstages⟩ := stages_of_check hp
  obtain ⟨haggregations, hgroupBy⟩ := checkOperation_list (hop ▸ hstages.operation)
  have hresolved := hop ▸ hstages.resolved
  have hgroups : r.groupBy = [] := by
    obtain ⟨_, -, hresolved⟩ := bind_ok hresolved
    obtain ⟨groups, hgroups, hresolved⟩ := bind_ok hresolved
    obtain ⟨_, -, hresolved⟩ := bind_ok hresolved
    obtain ⟨_, -, hresolved⟩ := bind_ok hresolved
    rw [hgroupBy] at hgroups
    cases hgroups
    cases hresolved
    rfl
  exact
    { isFiltered_of_check hc hp with
      operation_eq := hop
      groupBy_nil := hstages.groupBy.trans hgroups
      aggregations_nil := by simp [hstages.aggregations_eq, haggregations]
      order_mem := by
        intro o ho
        obtain ⟨x, hx, hxo⟩ := exists_of_mem_checkAll hstages.orderBy o ho
        obtain ⟨f, hf, ht⟩ := resolve_orderBy_mem hresolved x.2 (List.of_mem_zip hx).2
        exact ⟨f, hf, (checkOrder_ok hxo).trans ht⟩ }

end Plan

end CatalogQuery
