import CatalogQuery.Proofs.CompiledText
import CatalogQuery.Proofs.PlanVerdict
/-!
# Queries of accepted plans

Every plan that passes its checks against a catalog is an accepted one on an entity of the catalog.
The result columns of its query show its labels, and with them whether it has aggregates; a name among
the columns is known by its position.
-/
namespace CatalogQuery

namespace Plan

theorem checkShape_of_checkOperation {p : Plan} {operation : Operation}
    {functions : List AggregateFunction} (h : p.checkOperation = .ok (operation, functions)) :
    p.checkShape operation = .ok () := by
  rw [checkOperation] at h
  split at h
  next => cases h
  next =>
    obtain ⟨u, hshape, h⟩ := bind_ok h
    obtain ⟨_, -, h⟩ := bind_ok h
    cases h
    exact hshape

/-- Rows come without aggregates, and aggregates with at least one. -/
theorem operation_eq_list_iff {p : Plan} {operation : Operation}
    (h : p.checkShape operation = .ok ()) : operation = .list ↔ p.aggregations = [] := by
  cases operation with
  | list => exact iff_of_true rfl (checkShape_list h).1
  | aggregate =>
    have hsome : p.aggregations ≠ [] := (p.checkShape_aggregate_decides.ok_iff).mp ⟨(), h⟩
    simp [hsome]

/-- Labels are plain and distinct, and none is taken. -/
theorem checkAggregations_ok {entity : String} {taken : List String}
    {as : List CheckedAggregation} (h : checkAggregations entity taken as = .ok ()) :
    (as.map (·.label)).Nodup ∧
      ∀ a ∈ as, a.label ∉ taken ∧ Text.isIdentifier a.label = true := by
  induction as generalizing taken with
  | nil => simp
  | cons a as ih =>
    rw [checkAggregations] at h
    split at h
    next => cases h
    next hlabel =>
      split at h
      next => cases h
      next hfree =>
        obtain ⟨_, -, h⟩ := bind_ok h
        obtain ⟨hnodup, hrest⟩ := nodup_unseen_cons.mp (ih h)
        have hplain : Text.isIdentifier a.label = true :=
          Text.isIdentifier_of_isLabel (by simpa using hlabel)
        exact ⟨hnodup, List.forall_mem_cons.mpr ⟨⟨hfree, hplain⟩, hrest⟩⟩

theorem resolveOrder_field {e : Entity} {operation : Operation} {as : List Aggregation} {o : Order}
    {f : Field} (h : resolveOrder e operation as o = .ok (.field f)) : f ∈ e.fields := by
  have hfound : resolveField e o.field = .ok f := by
    cases operation with
    | list =>
      obtain ⟨g, hg, hsame⟩ := map_ok h
      cases hsame
      exact hg
    | aggregate =>
      rw [resolveOrder] at h
      split at h
      next => cases h
      next =>
        obtain ⟨g, hg, hsame⟩ := map_ok h
        cases hsame
        exact hg
  exact resolveField_mem hfound

theorem resolveOrder_aggregate {e : Entity} {operation : Operation} {as : List Aggregation}
    {o : Order} {i : Nat} (h : resolveOrder e operation as o = .ok (.aggregate i)) :
    i < as.length := by
  cases operation with
  | list =>
    obtain ⟨f, -, hsame⟩ := map_ok h
    cases hsame
  | aggregate =>
    rw [resolveOrder] at h
    split at h
    next j hj =>
      cases h
      exact (List.findIdx?_eq_some_iff_getElem.mp hj).1
    next =>
      obtain ⟨f, -, hsame⟩ := map_ok h
      cases hsame

/-- An aggregate is ordered by fields that it is grouped by: an id tells a field. -/
theorem mem_groupBy_of_checkOrder {e : Entity} (hindexed : IsIndexed e)
    (hnames : (e.fields.map (·.name)).Nodup) {groupBy : List Field}
    (hgroup : ∀ f ∈ groupBy, f ∈ e.fields) {f : Field} (hf : f ∈ e.fields) {x : Order}
    {o : CheckedOrder} (h : checkOrder .aggregate groupBy (x, .field f) = .ok o) : f ∈ groupBy := by
  rw [checkOrder] at h
  split at h
  next => cases h
  next =>
    simp only [true_and] at h
    split at h
    next => cases h
    next hgrouped =>
      obtain ⟨f', hf', hid⟩ := List.mem_map.mp (Decidable.not_not.mp hgrouped)
      have hname := (hindexed f' (hgroup f' hf') f hf).mp hid
      exact List.inj_on_of_nodup_map hnames (hgroup f' hf') hf hname ▸ hf'

end Plan

/-- The aggregations of the plan, each with its function and its field. -/
theorem Plan.aggregations_ok {p : Plan} {e : Entity} {functions : List AggregateFunction}
    {targets : List (Option Field)}
    (hfunctions : checkAll checkFunction p.aggregations = .ok functions)
    (htargets : checkAll (resolveTarget e) p.aggregations = .ok targets)
    {as : List CheckedAggregation}
    (has : as = ((p.aggregations.zip functions).zip targets).map fun a =>
      { function := a.1.2, target := a.2, label := a.1.1.label : CheckedAggregation }) :
    as.length = p.aggregations.length ∧
      ∀ a ∈ as, ∀ f, a.target = some f → f ∈ e.fields := by
  have hknown := (List.forall₂_iff_zip.mp (forall₂_of_checkAll hfunctions)).1
  have hfound := (List.forall₂_iff_zip.mp (forall₂_of_checkAll htargets)).1
  subst has
  constructor
  · simp [← hknown, ← hfound]
  · intro a ha f hf
    obtain ⟨x, hx, rfl⟩ := List.mem_map.mp ha
    have hpair : x.2 ∈ targets := (List.of_mem_zip hx).2
    obtain ⟨b, -, hb⟩ := exists_of_mem_checkAll htargets x.2 hpair
    exact (field_of_resolveTarget_some (hb.trans (congrArg Except.ok hf))).2.2

theorem Plan.isAccepted_of_check {source : String} {d : CatalogDefinition} {g : UInt64}
    {c : Catalog} {policy : LimitPolicy} {plan : Plan} {p : CheckedPlan}
    (hc : Catalog.ofDefinition source d g = .ok c) (hp : plan.check c policy = .ok p) :
    p.IsAccepted ∧ p.entity ∈ c.entities := by
  obtain ⟨functions, r, hstages⟩ := stages_of_check hp
  have hfiltered := isFiltered_of_check hc hp
  have hmem : p.entity ∈ c.entities := List.mem_of_find?_eq_some hstages.entity
  have hindexed := isIndexed_of_ofDefinition hc hmem
  obtain ⟨-, -, htargets, horders⟩ := resolve_ok hstages.resolved
  obtain ⟨hlength, htarget⟩ := aggregations_ok (operation_of_checkOperation hstages.operation).2
    htargets hstages.aggregations_eq
  obtain ⟨hnodup, hlabels⟩ := checkAggregations_ok hstages.aggregations
  have hgroup : ∀ f ∈ p.groupBy, f ∈ p.entity.fields := by
    rw [hstages.groupBy]
    exact fun f hf => groupBy_mem hstages.resolved hf
  have horder : ∀ o ∈ p.orderBy, ∃ x,
      checkOrder p.operation p.groupBy (x, o.target) = .ok o ∧
      resolveOrder p.entity p.operation plan.aggregations x = .ok o.target := by
    intro o ho
    obtain ⟨x, hx, hxo⟩ := exists_of_mem_checkAll hstages.orderBy o ho
    rw [checkOrder_ok hxo, hstages.groupBy]
    exact ⟨x.1, hxo, eq_ok_of_mem_zip horders hx⟩
  refine ⟨?_, hmem⟩
  exact
    { entity_wellFormed := hfiltered.entity_wellFormed
      operation_eq_list_iff := by
        rw [operation_eq_list_iff (checkShape_of_checkOperation hstages.operation),
          ← List.length_eq_zero_iff, ← List.length_eq_zero_iff, hlength]
      filter_mem := hfiltered.filter_mem
      group_mem := hgroup
      target_mem := htarget
      labels_plain := fun a ha => (hlabels a ha).2
      labels_nodup := hnodup
      order_shown := by
        intro o ho f hf
        obtain ⟨x, hcheck, hresolve⟩ := horder o ho
        rw [hf] at hcheck hresolve
        have hfield := resolveOrder_field hresolve
        rw [CheckedPlan.shown]
        cases hoperation : p.operation with
        | list => exact hfield
        | aggregate =>
          rw [hoperation] at hcheck
          exact mem_groupBy_of_checkOrder hindexed hfiltered.entity_wellFormed.names_nodup hgroup
            hfield hcheck
      order_aggregated := by
        intro o ho i hi
        obtain ⟨x, -, hresolve⟩ := horder o ho
        rw [hi] at hresolve
        exact hlength.symm ▸ resolveOrder_aggregate hresolve }

namespace CheckedPlan

/-- A name among the columns is found, and its position with it. -/
theorem findIdx?_eq_columnIndex {columns : List OutputColumn} {name : String}
    (h : name ∈ columns.map (·.name)) :
    columns.findIdx? (·.name == name) = some (columnIndex columns name) := by
  obtain ⟨c, hc, hname⟩ := List.mem_map.mp h
  have hsome : (columns.findIdx? (·.name == name)).isSome = true := by
    simpa using ⟨c, hc, hname⟩
  obtain ⟨i, hi⟩ := Option.isSome_iff_exists.mp hsome
  rw [columnIndex, hi, Option.getD_some]

/-- A name among the columns is the name at its position. -/
theorem name_getElem?_columnIndex {columns : List OutputColumn} {name : String}
    (h : name ∈ columns.map (·.name)) :
    columns[columnIndex columns name]?.map (·.name) = some name := by
  obtain ⟨hlt, hfound, -⟩ := List.findIdx?_eq_some_iff_getElem.mp (findIdx?_eq_columnIndex h)
  simpa [hlt] using hfound

theorem columnIndex_inj {columns : List OutputColumn} {name name' : String}
    (h : name ∈ columns.map (·.name)) (h' : name' ∈ columns.map (·.name))
    (hsame : columnIndex columns name = columnIndex columns name') : name = name' := by
  have hname := name_getElem?_columnIndex h
  rw [hsame, name_getElem?_columnIndex h'] at hname
  exact (Option.some.inj hname).symm

namespace IsAccepted

variable {p : CheckedPlan} (hp : p.IsAccepted) (generation : UInt64)

include hp

theorem columns_names : (p.compile generation).columns.map (·.name) =
    p.shown.map (·.name) ++ p.aggregations.map (·.label) := by
  show (p.outputs.map (·.2)).map (·.name) = _
  rw [hp.outputs_eq, List.map_append, List.map_append, List.map_map, List.map_map, List.map_map,
    List.map_map]
  rfl

omit hp in
theorem length_columns :
    (p.compile generation).columns.length = (p.compile generation).base.output.length := by
  show (p.outputs.map (·.2)).length = (p.outputs.map (·.1)).length
  rw [List.length_map, List.length_map]

/-- The result columns show the labels. -/
theorem labels_eq : (p.compile generation).base.output.filterMap Output.label? =
    p.aggregations.map (·.label) := by
  rw [hp.base_output, List.filterMap_append, List.filterMap_map, List.filterMap_map]
  have hshown : p.shown.filterMap (Output.label? ∘ fun f => .column f.column) = [] :=
    List.filterMap_eq_nil_iff.mpr fun _ _ => rfl
  have hlabels : Output.label? ∘ (fun a : CheckedAggregation =>
      .aggregate a.function (a.target.map (·.column)) a.label) = some ∘ (·.label) := rfl
  rw [hshown, hlabels, List.nil_append, List.filterMap_eq_map]

end IsAccepted

end CheckedPlan

end CatalogQuery
