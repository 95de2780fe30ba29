import CatalogQuery.Proofs.AcceptedPlan
import CatalogQuery.Proofs.Containment
import CatalogQuery.Proofs.ListStatement
import CatalogQuery.Proofs.RowRecord
/-!
# Selection

Which rows a plan for rows selects and how it orders them, said about the stored values alone, and
that the conditions of the compiled statement are true on just these rows. A filter never holds on
null.
-/
namespace CatalogQuery

/-- How a stored value stands to a value of a filter. Null stands to nothing, and nothing stands to
what is no number. -/
def Cell.against? : Cell → Scalar → Option Ordering
  | .text s, .text v => some (compare s v)
  | .text s, .timestamp v => some (compare s v.text)
  | .integer n, .integer v => some (compare n.toInt v.toInt)
  | .integer n, .real v =>
    if v.isNaN then none else some (compare (Binary64.scaleInt n.toInt) v.scaled)
  | .integer n, .bool v => some (compare n.toInt (if v then 1 else 0))
  | .real x, .integer v => some (compare x.scaled (Binary64.scaleInt v.toInt))
  | .real x, .real v => x.compare? v
  | _, _ => none

def Predicate.holds (c : Cell) : Predicate → Bool
  | .compare op v => (c.against? v).any op.holds
  | .isIn vs => vs.any fun v => c.against? v == some .eq
  | .like raw =>
    match c with
    | .text s => Text.containsAsPattern raw s
    | _ => false
  | .between low high => (c.against? low).any (· != .lt) && (c.against? high).any (· != .gt)

namespace CheckedPlan

/-- The time field is within the time range, if the plan has one. -/
def inTimeRange (p : CheckedPlan) (value : String → Cell) : Bool :=
  match p.timeRange, p.entity.timeField with
  | none, _ => true
  | some range, some f =>
    (Predicate.between (.timestamp range.start) (.timestamp range.finish)).holds (value f.column)
  | some _, none => false

/-- The plan selects a row with these values. -/
def selects (p : CheckedPlan) (value : String → Cell) : Bool :=
  p.filters.all (fun f => f.predicate.holds (value f.field.column)) && p.inTimeRange value

def keyFields (p : CheckedPlan) : List (Field × Direction) :=
  p.orderBy.filterMap fun o =>
    match o.target with
    | .field f => some (f, o.direction)
    | .aggregate _ => none

/-- The order of two rows with these values, by the first field on which they differ. -/
def rowOrder (p : CheckedPlan) (a b : String → Cell) : Ordering :=
  p.keyFields.foldr (fun k rest => (Cell.orderIn k.2 (a k.1.column) (b k.1.column)).then rest) .eq

end CheckedPlan

/-- Values of the kind are compared as they are where the other side is a column of the affinity. -/
def ValueKind.suits : ValueKind → Affinity → Bool
  | .string, .number | .timestamp, .number | .number, .text | .boolean, .text => false
  | _, _ => true

theorem CheckedPlan.rowOrder_eq_keyOrder (p : CheckedPlan) (a b : String → Cell) :
    p.rowOrder a b = keyOrder (p.keyFields.map fun k => (.column k.1.column, k.2))
      (fun k => a k.name) (fun k => b k.name) := by
  rw [rowOrder]
  induction p.keyFields with
  | nil => rfl
  | cons k rest ih =>
    rw [List.map_cons, keyOrder_cons, ← ih]
    rfl

instance (p : CheckedPlan) : Std.TransCmp p.rowOrder := by
  have h : p.rowOrder = fun a b => keyOrder (p.keyFields.map fun k => (.column k.1.column, k.2))
      (fun k => a k.name) (fun k => b k.name) := by
    funext a b
    exact p.rowOrder_eq_keyOrder a b
  rw [h]
  exact
    { eq_swap := Std.OrientedCmp.eq_swap
      isLE_trans := Std.TransCmp.isLE_trans }

theorem Binary64.not_isNaN_of_isFinite {x : Binary64} (h : x.isFinite = true) : x.isNaN = false := by
  simp only [isFinite, isNaN, decide_eq_true_eq, decide_eq_false_iff_not] at h ⊢
  omega

theorem Cell.asNumber_eq_self {c : Cell} (h : ∀ s, c ≠ .text s) : c.asNumber = c := by
  cases c with
  | text s => exact absurd rfl (h s)
  | null | integer | real | blob => rfl

theorem Affinity.apply_ofScalar {kind : ValueKind} {a : Affinity} {v : Scalar}
    (ha : kind.suits a = true) (hv : v.isOfKind kind = true) :
    a.apply (Cell.ofParam (.ofScalar v)) = Cell.ofParam (.ofScalar v) := by
  cases a with
  | plain => rfl
  | text =>
    cases kind with
    | number | boolean => cases ha
    | string =>
      cases v with
      | text s => rfl
      | integer | real | bool | timestamp => cases hv
    | timestamp =>
      cases v with
      | timestamp t => rfl
      | text | integer | real | bool => cases hv
  | number =>
    apply Cell.asNumber_eq_self
    intro s hs
    cases kind with
    | string | timestamp => cases ha
    | number | boolean =>
      cases v with
      | text | timestamp => cases hv
      | integer n => cases hs
      | bool b => cases hs
      | real x =>
        rw [Param.ofScalar, Cell.ofParam] at hs
        split at hs <;> cases hs

namespace Cell

theorem compareBy_ofScalar {kind : ValueKind} {c : Cell} {v : Scalar} (hc : kind.fits c = true)
    (hv : v.isOfKind kind = true) (op : Comparison) :
    c.compareBy op (ofParam (.ofScalar v)) = (c.against? v).map op.holds := by
  cases c with
  | null => rfl
  | blob bytes => cases kind <;> cases hc
  | text s =>
    cases kind with
    | number | boolean => cases hc
    | string =>
      cases v with
      | text v => rfl
      | integer | real | bool | timestamp => cases hv
    | timestamp =>
      cases v with
      | timestamp v => rfl
      | text | integer | real | bool => cases hv
  | integer n =>
    cases v with
    | text | timestamp =>
      cases kind with
      | string | timestamp => cases hc
      | number | boolean => cases hv
    | integer v => rfl
    | bool b => cases b <;> rfl
    | real y =>
      rw [Param.ofScalar, ofParam, against?]
      split <;> rfl
  | real x =>
    cases kind with
    | string | timestamp | boolean => cases hc
    | number =>
      have hx := Binary64.not_isNaN_of_isFinite hc
      cases v with
      | text | timestamp | bool => cases hv
      | integer v => rfl
      | real y =>
        rw [Param.ofScalar, ofParam, against?, Binary64.compare?, hx, Bool.false_or]
        split <;> rfl

end Cell

theorem Option.map_eq_some_true_iff {α : Type} {f : α → Bool} {o : Option α} :
    o.map f = some true ↔ o.any f = true := by
  cases o <;> simp

section Filter

variable {kind : ValueKind} {a : Affinity} {c : Cell} (ha : kind.suits a = true)
  (hc : kind.fits c = true)

include ha hc

theorem Cell.compareBy_apply_ofScalar {v : Scalar} (hv : v.isOfKind kind = true) (op : Comparison) :
    c.compareBy op (a.apply (ofParam (.ofScalar v))) = some true ↔
      (c.against? v).any op.holds = true := by
  rw [Affinity.apply_ofScalar ha hv, compareBy_ofScalar hc hv, Option.map_eq_some_true_iff]

theorem Cell.any_compareBy_ofScalar {vs : List Scalar} (hvs : ∀ v ∈ vs, v.isOfKind kind = true) :
    Truth.any (vs.map fun v => c.compareBy .eq (a.apply (ofParam (.ofScalar v)))) = some true ↔
      (vs.any fun v => c.against? v == some .eq) = true := by
  have hany (v : Scalar) : (c.against? v == some .eq) = (c.against? v).any Comparison.eq.holds := by
    cases c.against? v <;> rfl
  rw [Truth.any_eq_true, List.any_eq_true]
  simp only [List.mem_map, exists_exists_and_eq_and, hany]
  constructor
  · rintro ⟨v, hv, h⟩
    exact ⟨v, hv, (compareBy_apply_ofScalar ha hc (hvs v hv) .eq).mp h⟩
  · rintro ⟨v, hv, h⟩
    exact ⟨v, hv, (compareBy_apply_ofScalar ha hc (hvs v hv) .eq).mpr h⟩

end Filter

def Cell.hasNoZero : Cell → Bool
  | .text s => !s.toList.contains '\x00'
  | _ => true

def Predicate.hasNoZero : Predicate → Bool
  | .like raw => !raw.toList.contains '\x00'
  | _ => true

/-- The condition of a filter is true just where its predicate holds. -/
theorem CheckedPlan.filterCondition_truth {f : CheckedFilter} {a : Affinity} {value : String → Cell}
    (hkind : f.predicate.isOfKind f.field.kind = true) (ha : f.field.kind.suits a = true)
    (hfits : f.field.kind.fits (value f.field.column) = true)
    (hzero : (value f.field.column).hasNoZero = true) (hraw : f.predicate.hasNoZero = true) :
    (((filterCondition f).map Cell.ofParam).suitedTo a).truth value = some true ↔
      f.predicate.holds (value f.field.column) = true := by
  rw [filterCondition]
  cases hp : f.predicate with
  | compare op v =>
    rw [hp] at hkind
    exact Cell.compareBy_apply_ofScalar ha hfits hkind op
  | isIn vs =>
    rw [hp, Predicate.isOfKind, List.all_eq_true] at hkind
    have h := Cell.any_compareBy_ofScalar ha hfits hkind
    show Truth.any ((((vs.map _).map _).map _).map _) = some true ↔ _
    rw [List.map_map, List.map_map, List.map_map]
    exact h
  | like raw =>
    rw [hp] at hraw hkind
    have hstring : f.field.kind = .string := by simpa [Predicate.isOfKind] using hkind
    rw [hstring] at hfits
    show (value f.field.column).like? (.text (likePattern raw)) = some true ↔ _
    cases hcell : value f.field.column with
    | null => simp [Cell.like?, Cell.isNull, Predicate.holds]
    | text s =>
      rw [hcell] at hzero
      rw [Cell.like?_likePattern (by simpa [Predicate.hasNoZero] using hraw)
        (by simpa [Cell.hasNoZero] using hzero), Option.some_inj]
      rfl
    | integer | real | blob => rw [hcell] at hfits; cases hfits
  | between low high =>
    rw [hp, Predicate.isOfKind, Bool.and_eq_true] at hkind
    have hlow := Cell.compareBy_apply_ofScalar ha hfits hkind.1 .gte
    have hhigh := Cell.compareBy_apply_ofScalar ha hfits hkind.2 .lte
    rw [Predicate.holds, Bool.and_eq_true]
    show Truth.and _ _ = some true ↔ _
    rw [Truth.and_eq_true]
    exact and_congr hlow hhigh

/-- The table holds what the entity says: every mapped column is stored, and its values are null or
of the kind of its field and are compared as they are. -/
structure Entity.IsStoredIn (e : Entity) (t : Table) : Prop where
  stores : ∀ f ∈ e.fields, t.stores f.column = true
  suits : ∀ f ∈ e.fields, f.kind.suits (t.affinity f.column) = true
  fits : ∀ f ∈ e.fields, ∀ row ∈ t.numberedRows, f.kind.fits (t.value row f.column) = true

theorem Entity.mem_of_timeField {e : Entity} {f : Field} (h : e.timeField = some f) :
    f ∈ e.fields := by
  obtain ⟨i, -, hi⟩ := Option.bind_eq_some_iff.mp h
  exact List.mem_of_getElem? hi

/-- Conditions are on mapped columns. -/
theorem CheckedPlan.column_mem_of_mem_conditions (p : CheckedPlan)
    (hfilters : ∀ f ∈ p.filters, f.field ∈ p.entity.fields) {c : Condition Param}
    (hc : c ∈ p.filters.map filterCondition ++ p.rangeConditions) :
    ∃ f ∈ p.entity.fields, f.column = c.column := by
  rcases List.mem_append.mp hc with hc | hc
  · obtain ⟨f, hf, rfl⟩ := List.mem_map.mp hc
    refine ⟨f.field, hfilters f hf, ?_⟩
    rw [filterCondition]
    cases f.predicate <;> rfl
  · rw [rangeConditions] at hc
    cases hr : p.timeRange with
    | none => rw [hr] at hc; cases hc
    | some range =>
      cases hf : p.entity.timeField with
      | none => rw [hr, hf] at hc; cases hc
      | some f =>
        rw [hr, hf] at hc
        refine ⟨f, Entity.mem_of_timeField hf, ?_⟩
        rcases List.mem_cons.mp hc with rfl | hc
        · rfl
        · rw [List.mem_singleton.mp hc]
          rfl

namespace CheckedPlan.IsListing

variable {p : CheckedPlan} (hp : p.IsListing) (generation : UInt64)

include hp

theorem outputs_eq : p.outputs = p.entity.fields.map fieldOutput := by
  rw [outputs, hp.operation_eq]

theorem base_output :
    (p.compile generation).base.output = p.entity.fields.map fun f => .column f.column := by
  show p.outputs.map (·.1) = _
  rw [hp.outputs_eq, List.map_map]
  rfl

theorem columns_eq :
    (p.compile generation).columns = p.entity.fields.map fun f => ⟨f.name, f.kind⟩ := by
  show p.outputs.map (·.2) = _
  rw [hp.outputs_eq, List.map_map]
  rfl

theorem base_isListing : (p.compile generation).base.IsListing := by
  constructor
  · intro o ho
    rw [hp.base_output] at ho
    obtain ⟨f, -, rfl⟩ := List.mem_map.mp ho
    rfl
  · show p.groupBy.map (·.column) = []
    rw [hp.groupBy_nil]
    rfl

theorem keyFields_mem {k : Field × Direction} (hk : k ∈ p.keyFields) : k.1 ∈ p.entity.fields := by
  obtain ⟨o, ho, htarget⟩ := List.mem_filterMap.mp hk
  obtain ⟨f, hf, hfield⟩ := hp.order_mem o ho
  rw [hfield] at htarget
  cases htarget
  exact hf

/-- The ordering keys are the fields that the plan is ordered by. -/
theorem orderBy_eq (columns : List OutputColumn) :
    p.orderBy.map (p.orderKey columns) = p.keyFields.map fun k =>
      { term := .column k.1.column, column := columnIndex columns k.1.name, direction := k.2,
        nullable := k.1.nullable } := by
  have hmem := hp.order_mem
  rw [keyFields]
  generalize p.orderBy = orders at hmem ⊢
  induction orders with
  | nil => rfl
  | cons o rest ih =>
    obtain ⟨f, -, htarget⟩ := hmem o List.mem_cons_self
    rw [List.map_cons, ih fun c hc => hmem c (List.mem_cons_of_mem _ hc), List.filterMap_cons,
      orderKey, htarget]
    rfl

theorem base_orderBy :
    (p.compile generation).base.orderBy = p.keyFields.map fun k => (.column k.1.column, k.2) := by
  show (p.orderBy.map _).map _ = _
  rw [hp.orderBy_eq, List.map_map]
  rfl

theorem keyOrder_eq (a b : String → Cell) :
    keyOrder (p.compile generation).base.orderBy (fun k => a k.name) (fun k => b k.name) =
      p.rowOrder a b := by
  rw [hp.base_orderBy, rowOrder_eq_keyOrder]

/-- The record of a row whose values can be shown. -/
theorem decodeRow_eq {t : Table} {row : StoredRow} {json : Field → Json}
    (h : ∀ f ∈ p.entity.fields, (t.value row f.column).toJson? f.kind = some (json f)) :
    decodeRow (p.compile generation).columns ((p.compile generation).base.rowCells t row) =
      .ok (recordOf (p.entity.fields.map fun f => (f.name, json f))) := by
  rw [hp.columns_eq, Statement.rowCells, hp.base_output, List.map_map]
  exact decodeRow_eq_ok (fun f : Field => ⟨f.name, f.kind⟩) hp.entity_wellFormed.names_nodup h

/-- Only a row whose values can be shown has a record. -/
theorem shown_of_decodeRow_eq_ok {t : Table} {row : StoredRow} {record : Row}
    (h : decodeRow (p.compile generation).columns ((p.compile generation).base.rowCells t row) =
      .ok record) :
    ∀ f ∈ p.entity.fields, ((t.value row f.column).toJson? f.kind).isSome = true := by
  rw [hp.columns_eq, Statement.rowCells, hp.base_output, List.map_map] at h
  exact CatalogQuery.shown_of_decodeRow_eq_ok (fun f : Field => ⟨f.name, f.kind⟩) h

end CheckedPlan.IsListing

namespace CheckedPlan

/-- The conditions of the plan are true on a row, with their values taken as those of the columns. -/
def Admits (p : CheckedPlan) (t : Table) (row : StoredRow) : Prop :=
  ∀ c ∈ p.filters.map filterCondition ++ p.rangeConditions,
    ((c.map Cell.ofParam).suitedTo (t.affinity c.column)).truth (t.value row) = some true

instance (p : CheckedPlan) (t : Table) (row : StoredRow) : Decidable (p.Admits t row) :=
  inferInstanceAs (Decidable (∀ _ ∈ _, _))

/-- The rows that the plan admits. -/
def admittedRows (p : CheckedPlan) (t : Table) : List StoredRow :=
  t.numberedRows.filter fun row => p.Admits t row

theorem matching_compile (p : CheckedPlan) (generation : UInt64) (t : Table) :
    (((p.compile generation).base.map Cell.ofParam).suited t).matching t = p.admittedRows t := by
  apply List.filter_congr
  intro row _
  rw [Bool.eq_iff_iff, beq_iff_eq, Statement.truth_suited_iff, decide_eq_true_eq]
  exact and_iff_left fun branches hbranches => by cases hbranches

end CheckedPlan

namespace CheckedPlan.IsFiltered

variable {p : CheckedPlan} (hp : p.IsFiltered)

include hp

theorem rangeConditions_hold {t : Table} {row : StoredRow} (ht : p.entity.IsStoredIn t)
    (hrow : row ∈ t.numberedRows) :
    (∀ c ∈ p.rangeConditions,
        ((c.map Cell.ofParam).suitedTo (t.affinity c.column)).truth (t.value row) = some true) ↔
      p.inTimeRange (t.value row) = true := by
  rw [rangeConditions, inTimeRange]
  cases hr : p.timeRange with
  | none => simp
  | some range =>
    have hfield : p.entity.timeField.isSome = true := hp.timeField_isSome (by rw [hr]; rfl)
    obtain ⟨f, hf⟩ := Option.isSome_iff_exists.mp hfield
    have hmem := Entity.mem_of_timeField hf
    have hkind := hp.entity_wellFormed.timeField_kind f hf
    have hsuits := ht.suits f hmem
    have hfits := ht.fits f hmem row hrow
    rw [hkind] at hsuits hfits
    have hstart := Cell.compareBy_apply_ofScalar hsuits hfits (v := .timestamp range.start) rfl .gte
    have hfinish := Cell.compareBy_apply_ofScalar hsuits hfits (v := .timestamp range.finish) rfl .lte
    rw [hf, List.forall_mem_cons, List.forall_mem_singleton]
    show _ ↔ (_ && _) = true
    rw [Bool.and_eq_true]
    exact and_congr hstart hfinish

/-- The conditions of the plan are true on just the rows that it selects. -/
theorem admits_iff {t : Table} {row : StoredRow} (ht : p.entity.IsStoredIn t)
    (hzero : ∀ f ∈ p.entity.fields, ∀ row ∈ t.numberedRows, (t.value row f.column).hasNoZero = true)
    (hraw : ∀ f ∈ p.filters, f.predicate.hasNoZero = true) (hrow : row ∈ t.numberedRows) :
    p.Admits t row ↔ p.selects (t.value row) = true := by
  have hfilters :
      (∀ c ∈ p.filters.map filterCondition,
        ((c.map Cell.ofParam).suitedTo (t.affinity c.column)).truth (t.value row) = some true) ↔
      p.filters.all (fun f => f.predicate.holds (t.value row f.field.column)) = true := by
    rw [List.all_eq_true, List.forall_mem_map]
    apply forall₂_congr
    intro f hf
    have hcolumn : (filterCondition f).column = f.field.column := by
      rw [filterCondition]
      cases f.predicate <;> rfl
    have hmem := hp.filter_mem f hf
    rw [hcolumn]
    exact filterCondition_truth (hp.filter_kind f hf) (ht.suits _ hmem) (ht.fits _ hmem row hrow)
      (hzero _ hmem row hrow) (hraw f hf)
  rw [selects, Bool.and_eq_true, ← hfilters, ← hp.rangeConditions_hold ht hrow]
  exact List.forall_mem_append

theorem admittedRows_eq {t : Table} (ht : p.entity.IsStoredIn t)
    (hzero : ∀ f ∈ p.entity.fields, ∀ row ∈ t.numberedRows, (t.value row f.column).hasNoZero = true)
    (hraw : ∀ f ∈ p.filters, f.predicate.hasNoZero = true) :
    p.admittedRows t = t.numberedRows.filter fun row => p.selects (t.value row) := by
  apply List.filter_congr
  intro row hrow
  rw [Bool.eq_iff_iff, decide_eq_true_eq, hp.admits_iff ht hzero hraw hrow]

end CheckedPlan.IsFiltered

theorem CheckedPlan.IsListing.matching_base {p : CheckedPlan} (hp : p.IsListing) (generation : UInt64)
    {t : Table} (ht : p.entity.IsStoredIn t)
    (hzero : ∀ f ∈ p.entity.fields, ∀ row ∈ t.numberedRows, (t.value row f.column).hasNoZero = true)
    (hraw : ∀ f ∈ p.filters, f.predicate.hasNoZero = true) :
    (((p.compile generation).base.map Cell.ofParam).suited t).matching t =
      t.numberedRows.filter fun row => p.selects (t.value row) := by
  rw [p.matching_compile, hp.isFiltered.admittedRows_eq ht hzero hraw]

end CatalogQuery
