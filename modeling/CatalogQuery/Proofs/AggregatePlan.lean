import CatalogQuery.Proofs.AcceptedRange
import CatalogQuery.Proofs.GroupedStatement
import CatalogQuery.Proofs.ListAnswer
/-!
# Plans for aggregates

What a plan for aggregates means, said about the rows of a group: the values of its results, the record
they make, and the order of two groups. A key of the ordering stands in the statement as a name, and
what is found under the name is the first result with such a label up to case, and only where there is
none what the plan means.
-/
namespace CatalogQuery

open Std

namespace Plan

variable {source : String} {d : CatalogDefinition} {g : UInt64} {c : Catalog} {policy : LimitPolicy}
  {plan : Plan} {p : CheckedPlan}

/-- The result columns have different names. -/
theorem columns_nodup_of_check (hc : Catalog.ofDefinition source d g = .ok c)
    (hp : plan.check c policy = .ok p) (generation : UInt64) :
    ((p.compile generation).columns.map (·.name)).Nodup := by
  obtain ⟨haccepted, hmem⟩ := isAccepted_of_check hc hp
  obtain ⟨functions, r, hstages⟩ := stages_of_check hp
  obtain ⟨-, hlabels⟩ := checkAggregations_ok hstages.aggregations
  rw [haccepted.columns_names]
  cases hoperation : p.operation with
  | list =>
    rw [CheckedPlan.shown, hoperation, haccepted.operation_eq_list_iff.mp hoperation, List.map_nil,
      List.append_nil]
    exact haccepted.entity_wellFormed.names_nodup
  | aggregate =>
    have hindexed := isIndexed_of_ofDefinition hc hmem
    have hgroups := (groups_decides hstages.resolved hindexed).ok_iff.mp ⟨(), hstages.groups⟩
    rw [← names_of_resolveField (resolve_ok hstages.resolved).2.1, ← hstages.groupBy] at hgroups
    rw [← hstages.groupBy] at hlabels
    rw [CheckedPlan.shown, hoperation]
    refine hgroups.append haccepted.labels_nodup fun name hname hlabel => ?_
    obtain ⟨a, ha, rfl⟩ := List.mem_map.mp hlabel
    exact (hlabels a ha).1 hname

end Plan

namespace CheckedAggregation

/-- The result of the aggregation over rows, if no sum overflows. -/
def result? (a : CheckedAggregation) (t : Table) (rows : List StoredRow) : Option Cell :=
  Cell.aggregate? a.function (argumentCells t rows (a.target.map (·.column)))

def result (a : CheckedAggregation) (t : Table) (rows : List StoredRow) : Cell :=
  (a.result? t rows).getD .null

def kind (a : CheckedAggregation) : ValueKind := a.function.outputKind (a.target.map (·.kind))

end CheckedAggregation

/-- A result of the kind as JSON; a number that is not finite is null. -/
def ValueKind.resultJson (kind : ValueKind) : Cell → Json
  | .real x => .ofReal x
  | c => kind.json c

theorem ValueKind.resultJson_of_fits {kind : ValueKind} {c : Cell} (h : kind.fits c = true) :
    kind.resultJson c = kind.json c := by
  cases c with
  | real x =>
    cases kind with
    | string | timestamp | boolean => cases h
    | number => exact if_pos h
  | null | integer | text | blob => rfl

namespace Cell

def isNumeric : Cell → Bool
  | .null | .integer _ | .real _ => true
  | _ => false

theorem toJson?_of_isNumeric {c : Cell} (h : c.isNumeric = true) :
    c.toJson? .number = some (ValueKind.number.resultJson c) := by
  cases c with
  | text | blob => cases h
  | null | integer | real => rfl

theorem isNumeric_ofReal (x : Binary64) : (ofReal x).isNumeric = true := by
  rw [ofReal]
  split <;> rfl

theorem isNumeric_of_sum? {cells : List Cell} {c : Cell} (h : sum? cells = some c) :
    c.isNumeric = true := by
  rw [sum?] at h
  split at h
  next =>
    cases h
    rfl
  next =>
    split at h
    next =>
      cases h
      rfl
    next => cases h
    next =>
      cases h
      exact isNumeric_ofReal _

theorem isNumeric_average (cells : List Cell) : (average cells).isNumeric = true := by
  rw [average]
  split
  next => rfl
  next => exact isNumeric_ofReal _

/-- An extreme is one of the values, or null where there are none. -/
theorem extreme_mem (o : Ordering) (cells : List Cell) :
    extreme o cells = .null ∨ extreme o cells ∈ cells := by
  rw [extreme]
  split
  next => exact .inl rfl
  next c rest hpresent =>
    have hchoice (best c : Cell) : (if c.order best = o then c else best) = best ∨
        (if c.order best = o then c else best) = c := by
      split
      next => exact .inr rfl
      next => exact .inl rfl
    have hmem := foldl_mem hchoice c rest
    rw [← hpresent] at hmem
    exact .inr (List.mem_filter.mp hmem).1

theorem toJson?_extreme {kind : ValueKind} {cells : List Cell} (o : Ordering)
    (h : ∀ c ∈ cells, kind.fits c = true) :
    (extreme o cells).toJson? kind = some (kind.resultJson (extreme o cells)) := by
  have hfits : kind.fits (extreme o cells) = true := by
    rcases extreme_mem o cells with hnull | hmem
    · rw [hnull]
      cases kind <;> rfl
    · exact h _ hmem
  rw [ValueKind.resultJson_of_fits hfits]
  exact toJson?_of_fits hfits

/-- Only a sum can overflow. -/
theorem aggregate?_isSome {f : AggregateFunction} {cells : List Cell}
    (h : f = .sum → (sum? cells).isSome = true) : (aggregate? f cells).isSome = true := by
  cases f with
  | sum => exact h rfl
  | count | avg | min | max => rfl

end Cell

namespace CheckedAggregation

variable {a : CheckedAggregation} {t : Table} {rows : List StoredRow}

def argumentKind (a : CheckedAggregation) : ValueKind := (a.target.map (·.kind)).getD .number

theorem fits_argumentCells
    (hfits : ∀ f, a.target = some f → ∀ row ∈ rows, f.kind.fits (t.value row f.column) = true) :
    ∀ c ∈ argumentCells t rows (a.target.map (·.column)), a.argumentKind.fits c = true := by
  rw [argumentKind]
  cases htarget : a.target with
  | none =>
    intro c hc
    obtain ⟨row, -, rfl⟩ := List.mem_map.mp hc
    rfl
  | some f =>
    intro c hc
    obtain ⟨row, hrow, rfl⟩ := List.mem_map.mp hc
    exact hfits f htarget row hrow

/-- A result is shown as one of its kind. -/
theorem toJson?_result
    (hfits : ∀ f, a.target = some f → ∀ row ∈ rows, f.kind.fits (t.value row f.column) = true)
    (hsome : (a.result? t rows).isSome = true) :
    (a.result t rows).toJson? a.kind = some (a.kind.resultJson (a.result t rows)) := by
  have hkind (h : a.function = .min ∨ a.function = .max) : a.kind = a.argumentKind := by
    rw [kind, argumentKind]
    rcases h with h | h <;> rw [h] <;> cases a.target <;> rfl
  obtain ⟨c, hc⟩ := Option.isSome_iff_exists.mp hsome
  rw [result, hc, Option.getD_some]
  rw [result?] at hc
  cases hfunction : a.function with
  | count =>
    rw [hfunction] at hc
    rw [kind, hfunction]
    cases hc
    rfl
  | sum =>
    rw [hfunction] at hc
    rw [kind, hfunction]
    exact Cell.toJson?_of_isNumeric (Cell.isNumeric_of_sum? hc)
  | avg =>
    rw [hfunction] at hc
    rw [kind, hfunction]
    cases hc
    exact Cell.toJson?_of_isNumeric (Cell.isNumeric_average _)
  | min =>
    rw [hfunction] at hc
    cases hc
    rw [hkind (.inl hfunction)]
    exact Cell.toJson?_extreme .lt (fits_argumentCells hfits)
  | max =>
    rw [hfunction] at hc
    cases hc
    rw [hkind (.inr hfunction)]
    exact Cell.toJson?_extreme .gt (fits_argumentCells hfits)

end CheckedAggregation

/-- The table has the mapped columns, with values that are null or of the kinds of their fields. -/
structure Entity.IsTypedIn (e : Entity) (t : Table) : Prop where
  stores : ∀ f ∈ e.fields, t.stores f.column = true
  fits : ∀ f ∈ e.fields, ∀ row ∈ t.numberedRows, f.kind.fits (t.value row f.column) = true

theorem Entity.IsStoredIn.isTypedIn {e : Entity} {t : Table} (ht : e.IsStoredIn t) : e.IsTypedIn t :=
  ⟨ht.stores, ht.fits⟩

namespace CheckedPlan

def groupColumns (p : CheckedPlan) : List String := p.groupBy.map (·.column)

/-- The rows that the plan admits and that agree with one in all that it groups by. -/
def groupOf (p : CheckedPlan) (t : Table) (row : StoredRow) : List StoredRow :=
  (p.admittedRows t).filter fun other => agreesOn p.groupColumns (t.value row) (t.value other)

/-- No sum over a group overflows. -/
def SumsFit (p : CheckedPlan) (t : Table) : Prop :=
  ∀ a ∈ p.aggregations, a.function = .sum → ∀ row ∈ p.admittedRows t,
    (a.result? t (p.groupOf t row)).isSome = true

/-- The record of a group: what it is grouped by, as in the row that stands for it, and the results
under their labels. -/
def groupRecord (p : CheckedPlan) (t : Table) (g : RowGroup) : Row :=
  recordOf (p.groupBy.map (fun f => (f.name, f.kind.json (t.value g.row f.column))) ++
    p.aggregations.map fun a => (a.label, a.kind.resultJson (a.result t g.rows)))

/-- The name of what is ordered by, among the result columns. -/
def targetName (p : CheckedPlan) : OrderTarget → String
  | .field f => f.name
  | .aggregate i => (p.aggregations[i]?.map (·.label)).getD ""

def targetValue (p : CheckedPlan) (t : Table) (g : RowGroup) : OrderTarget → Cell
  | .field f => t.value g.row f.column
  | .aggregate i => (p.aggregations[i]?.map (·.result t g.rows)).getD .null

/-- What is found under the name of what is ordered by: a label goes before a column. -/
def found (p : CheckedPlan) (target : OrderTarget) : OrderTarget :=
  match p.labelled? (p.keyName target) with
  | some i => .aggregate i
  | none => target

/-- No other result has the name for its label: none at all where it is that of a column, and none before
the result whose label it is. -/
def IsFoundFirst (p : CheckedPlan) : OrderTarget → Prop
  | .field f => ∀ a ∈ p.aggregations, Text.sameUpToCase a.label f.column = false
  | .aggregate i => ∀ a ∈ p.aggregations.take i,
      Text.sameUpToCase a.label (p.keyName (.aggregate i)) = false

/-- The order of two groups by the keys, where these stand for what they are taken for. -/
def groupOrder (p : CheckedPlan) (t : Table) (taken : OrderTarget → OrderTarget) (g h : RowGroup) :
    Ordering :=
  p.orderBy.foldr (fun o rest =>
    (Cell.orderIn o.direction (p.targetValue t g (taken o.target))
      (p.targetValue t h (taken o.target))).then rest) .eq

theorem groupOrder_congr {p : CheckedPlan} {taken taken' : OrderTarget → OrderTarget}
    (h : ∀ o ∈ p.orderBy, taken o.target = taken' o.target) (t : Table) :
    p.groupOrder t taken = p.groupOrder t taken' := by
  funext a b
  apply List.foldr_ext
  intro o ho rest
  rw [h o ho]

/-- A key stands where the column with the name of what is ordered by is looked for. -/
theorem orderKey_column (p : CheckedPlan) (columns : List OutputColumn) (o : CheckedOrder) :
    (p.orderKey columns o).column = columnIndex columns (p.targetName o.target) := by
  rw [orderKey]
  cases o.target <;> rfl

namespace IsAccepted

variable {p : CheckedPlan} (hp : p.IsAccepted)

include hp

/-- The name of what is ordered by is that of a result column. -/
theorem targetName_mem {o : CheckedOrder} (ho : o ∈ p.orderBy) (generation : UInt64) :
    p.targetName o.target ∈ (p.compile generation).columns.map (·.name) := by
  rw [hp.columns_names, List.mem_append]
  cases htarget : o.target with
  | field f => exact .inl (List.mem_map_of_mem (hp.order_shown o ho f htarget))
  | aggregate i =>
    have hi := hp.order_aggregated o ho i htarget
    right
    rw [targetName, List.getElem?_eq_getElem hi]
    exact List.mem_map_of_mem (List.getElem_mem hi)

/-- What the plan means is found where no other label has its name. -/
theorem found_eq_self_iff {o : CheckedOrder} (ho : o ∈ p.orderBy) :
    p.found o.target = o.target ↔ p.IsFoundFirst o.target := by
  cases htarget : o.target with
  | field f =>
    have hnone : p.found (.field f) = .field f ↔ p.labelled? f.column = none := by
      rw [found, keyName]
      cases p.labelled? f.column <;> simp
    rw [hnone, labelled?, List.findIdx?_eq_none_iff, IsFoundFirst]
  | aggregate i =>
    have hi := hp.order_aggregated o ho i htarget
    have hname : p.keyName (.aggregate i) = p.aggregations[i].label := by
      simp [keyName, hi]
    have hsome : p.found (.aggregate i) = .aggregate i ↔ p.labelled? p.aggregations[i].label = some i := by
      rw [found, hname]
      have hown := hp.labelled?_isSome ho htarget
      rw [htarget, hname] at hown
      cases hfound : p.labelled? p.aggregations[i].label with
      | none =>
        rw [hfound] at hown
        cases hown
      | some j => simp
    rw [hsome, labelled?, List.findIdx?_eq_some_iff_getElem, IsFoundFirst, hname]
    constructor
    · rintro ⟨_, -, hbefore⟩ a ha
      obtain ⟨j, hj, rfl⟩ := List.mem_take_iff_getElem.mp ha
      simpa using hbefore j (by omega)
    · intro hbefore
      refine ⟨hi, Text.sameUpToCase_refl _, fun j hj => ?_⟩
      rw [hbefore _ (List.mem_take_iff_getElem.mpr ⟨j, by omega, rfl⟩)]
      exact Bool.false_ne_true

end IsAccepted

end CheckedPlan

end CatalogQuery
