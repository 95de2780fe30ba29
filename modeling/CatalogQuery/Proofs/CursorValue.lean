import CatalogQuery.Proofs.RowRecord
import CatalogQuery.Proofs.Selection
/-!
# Values of cursors

A cursor holds the values of the ordering keys in the last row of a page, read from the record of
that row. Where the values are of the kinds of their fields, nothing is lost on the way: each one is
bound as the value that is stored.
-/
namespace CatalogQuery

/-- A value of the kind as a parameter. -/
def ValueKind.param : ValueKind → Cell → Param
  | .boolean, .integer n => .bool (n == 1)
  | _, .integer n => .integer n
  | _, .real x => .real x
  | _, .text s => .text s
  | _, _ => .null

theorem Scalar.int64?_toInt (n : Int64) : int64? n.toInt = some n := by
  rw [int64?, if_pos, Int64.ofInt_toInt]
  exact ⟨n.minValue_le_toInt, n.toInt_le⟩

section Value

variable {kind : ValueKind} {c : Cell} (h : kind.fits c = true)

include h

theorem Param.ofKeyValue?_json : ofKeyValue? kind (kind.json c) = some (kind.param c) := by
  cases c with
  | null => cases kind <;> rfl
  | blob bytes => cases kind <;> cases h
  | text s =>
    cases kind with
    | number | boolean => cases h
    | string | timestamp => rfl
  | integer n =>
    cases kind with
    | string | timestamp => cases h
    | number =>
      rw [ValueKind.json, ofKeyValue?, Scalar.int64?_toInt]
      · rfl
      · simp
    | boolean => rfl
  | real x =>
    cases kind with
    | string | timestamp | boolean => cases h
    | number => rfl

/-- A value bound from a record is the value that is stored. -/
theorem Cell.ofParam_param : ofParam (kind.param c) = c := by
  cases c with
  | null => cases kind <;> rfl
  | blob bytes => cases kind <;> cases h
  | text s =>
    cases kind with
    | number | boolean => cases h
    | string | timestamp => rfl
  | integer n =>
    cases kind with
    | string | timestamp => cases h
    | number => rfl
    | boolean =>
      rcases Bool.or_eq_true_iff.mp h with h | h
      · rw [beq_iff_eq.mp h]
        rfl
      · rw [beq_iff_eq.mp h]
        rfl
  | real x =>
    cases kind with
    | string | timestamp | boolean => cases h
    | number =>
      rw [ValueKind.param, ofParam, Binary64.not_isNaN_of_isFinite h]
      rfl

theorem ValueKind.param_eq_null_iff : kind.param c = .null ↔ c.isNull = true := by
  constructor
  · intro hnull
    rw [← Cell.ofParam_param h, hnull]
    rfl
  · intro hnull
    cases c with
    | null => cases kind <;> rfl
    | integer | real | text | blob => cases hnull

end Value

theorem mapM_eq_some_map {α β : Type} {f : α → Option β} {g : α → β} {xs : List α}
    (h : ∀ x ∈ xs, f x = some (g x)) : xs.mapM f = some (xs.map g) := by
  induction xs with
  | nil => rfl
  | cons x xs ih =>
    rw [List.mapM_cons, h x List.mem_cons_self, ih fun y hy => h y (List.mem_cons_of_mem _ hy)]
    rfl

namespace CheckedPlan

/-- The values of the ordering keys as parameters. -/
def cursorValues (p : CheckedPlan) (value : String → Cell) : List Param :=
  p.keyFields.map fun k => k.1.kind.param (value k.1.column)

namespace IsListing

variable {p : CheckedPlan} (hp : p.IsListing) (generation : UInt64)

include hp

/-- A field is found among the result columns by its name. -/
theorem getElem?_columnIndex {f : Field} (hf : f ∈ p.entity.fields) :
    (p.compile generation).columns[columnIndex (p.compile generation).columns f.name]? =
      some ⟨f.name, f.kind⟩ := by
  have hfind : (p.compile generation).columns.find? (·.name == f.name) = some ⟨f.name, f.kind⟩ := by
    rw [hp.columns_eq, List.find?_map]
    exact congrArg (Option.map _) (hp.entity_wellFormed.fieldNamed?_name hf)
  rw [List.find?_eq_bind_findIdx?_getElem?] at hfind
  obtain ⟨i, hi, hcolumn⟩ := Option.bind_eq_some_iff.mp hfind
  rw [columnIndex, hi]
  exact hcolumn

/-- The values of the keys are read from the record of a row. -/
theorem keyValues?_recordOf_of {json : Field → Json}
    {param : Field × Direction → Param}
    (hparam : ∀ k ∈ p.keyFields, Param.ofKeyValue? k.1.kind (json k.1) = some (param k)) :
    Cursor.keyValues? (p.compile generation)
        (recordOf (p.entity.fields.map fun f => (f.name, json f))) =
      some (p.keyFields.map param) := by
  have hkeys : (p.compile generation).orderBy = _ := hp.orderBy_eq (p.compile generation).columns
  rw [Cursor.keyValues?, hkeys, List.mapM_map]
  apply mapM_eq_some_map
  intro k hk
  have hmem := hp.keyFields_mem hk
  have hlookup : (recordOf (p.entity.fields.map fun f => (f.name, json f))).lookup k.1.name =
      some (json k.1) := by
    apply lookup_recordOf (m := (k.1.name, json k.1))
    · rw [List.map_map]
      exact hp.entity_wellFormed.names_nodup
    · exact List.mem_map_of_mem (f := fun f : Field => (f.name, json f)) hmem
  simpa [hp.getElem?_columnIndex generation hmem, hlookup] using hparam k hk

/-- The values of the keys are read back from the record of a row. -/
theorem keyValues?_recordOf {value : String → Cell} {json : Field → Json}
    (hfits : ∀ k ∈ p.keyFields, k.1.kind.fits (value k.1.column) = true)
    (hjson : ∀ k ∈ p.keyFields, json k.1 = k.1.kind.json (value k.1.column)) :
    Cursor.keyValues? (p.compile generation)
        (recordOf (p.entity.fields.map fun f => (f.name, json f))) =
      some (p.cursorValues value) := by
  apply hp.keyValues?_recordOf_of generation
  intro k hk
  rw [hjson k hk]
  exact Param.ofKeyValue?_json (hfits k hk)

end IsListing

end CheckedPlan

end CatalogQuery
