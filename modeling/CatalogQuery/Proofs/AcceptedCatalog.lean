import CatalogQuery.Catalog.Basic
import CatalogQuery.Proofs.CheckedResults
import Mathlib.Data.List.Nodup
/-!
# Accepted catalogs

What a definition that passes its checks gives: in every entity the names of the fields are
distinct, the table and the columns are plain identifiers, a field allows only operators that its
kind supports, and the time field is a timestamp.
-/
namespace CatalogQuery

/-- What is true of every entity of an accepted catalog. -/
structure Entity.WellFormed (e : Entity) : Prop where
  names_nodup : (e.fields.map (·.name)).Nodup
  fields_ne_nil : e.fields ≠ []
  table_plain : Text.isIdentifier e.table = true
  columns_plain : ∀ f ∈ e.fields, Text.isIdentifier f.column = true
  supported : ∀ f ∈ e.fields, ∀ o, f.allows o = true → f.kind.supports o = true
  timeField_kind : ∀ f, e.timeField = some f → f.kind = .timestamp

/-- With names that are all different, the element found is the one of the name. -/
theorem find?_name_eq_some_iff {α : Type} {name : α → String} {xs : List α}
    (h : (xs.map name).Nodup) {n : String} {x : α} :
    xs.find? (name · == n) = some x ↔ x ∈ xs ∧ name x = n := by
  constructor
  · intro hfind
    exact ⟨List.mem_of_find?_eq_some hfind, by simpa using List.find?_some hfind⟩
  · rintro ⟨hmem, rfl⟩
    cases hfind : xs.find? (name · == name x) with
    | none => exact absurd (beq_self_eq_true _) (List.find?_eq_none.mp hfind x hmem)
    | some y =>
      have hname : name y = name x := by simpa using List.find?_some hfind
      rw [List.inj_on_of_nodup_map h (List.mem_of_find?_eq_some hfind) hmem hname]

/-- A field is found by its name. -/
theorem Entity.WellFormed.fieldNamed?_name {e : Entity} (he : e.WellFormed) {f : Field}
    (hf : f ∈ e.fields) : e.fieldNamed? f.name = some f :=
  (find?_name_eq_some_iff he.names_nodup).mpr ⟨hf, rfl⟩

/-- With one name more that is seen, the others differ from it too. -/
theorem forall_unseen_cons {α β : Type} {name : α → β} {n : β} {xs : List α} {seen : List β} :
    (∀ y ∈ xs, name y ∉ n :: seen) ↔ n ∉ xs.map name ∧ ∀ y ∈ xs, name y ∉ seen := by
  simp only [List.mem_cons, not_or, List.mem_map, not_exists, not_and]
  exact ⟨fun h => ⟨fun y hy => (h y hy).1, fun y hy => (h y hy).2⟩, fun h y hy => ⟨h.1 y hy, h.2 y hy⟩⟩

/-- Names that are all different and none of them seen, one of them put aside. -/
theorem nodup_unseen_cons {α β : Type} {name : α → β} {x : α} {xs : List α} {seen : List β}
    {P : α → Prop} :
    ((xs.map name).Nodup ∧ ∀ y ∈ xs, name y ∉ name x :: seen ∧ P y) ↔
      ((x :: xs).map name).Nodup ∧ ∀ y ∈ xs, name y ∉ seen ∧ P y := by
  simp only [forall₂_and, forall_unseen_cons, List.map_cons, List.nodup_cons]
  tauto

theorem EntityDefinition.checkFields_ok_iff {entity : String} {seen : List String}
    {fs : List FieldDefinition} :
    checkFields entity seen fs = .ok () ↔ (fs.map (·.name)).Nodup ∧
      ∀ f ∈ fs, f.name ∉ seen ∧ Text.isIdentifier f.column = true ∧ f.unsupported? = none := by
  induction fs generalizing seen with
  | nil => simp [checkFields]
  | cons f fs ih =>
    rw [checkFields, List.forall_mem_cons, ite_error_eq_ok_iff, ite_error_eq_ok_iff]
    cases hu : f.unsupported? with
    | some o => simp
    | none =>
      simp only [ih, nodup_unseen_cons, Bool.not_eq_true', Bool.not_eq_false]
      tauto

theorem EntityDefinition.checkTimeField_ok_iff {d : EntityDefinition} :
    d.checkTimeField = .ok () ↔
      (∀ name, d.timeField = some name →
        ∃ f, d.fields.find? (·.name == name) = some f ∧ f.kind = .timestamp) ∧
      (.timeRange ∈ d.requires → d.timeField ≠ none) := by
  rw [checkTimeField]
  cases d.timeField with
  | none =>
    rw [ite_error_eq_ok_iff]
    simp
  | some name =>
    simp only
    split
    next hnone => simp [hnone]
    next f hf =>
      split
      next hkind => simp [hf, hkind]
      next hkind => simp [hf, hkind]

theorem EntityDefinition.check_ok_iff {d : EntityDefinition} :
    d.check = .ok () ↔ Text.isIdentifier d.table = true ∧ d.fields ≠ [] ∧
      checkFields d.name [] d.fields = .ok () ∧ d.checkTimeField = .ok () := by
  rw [check, ite_error_eq_ok_iff, ite_error_eq_ok_iff]
  cases checkFields d.name [] d.fields with
  | error f => simp [bind, Except.bind]
  | ok u => simp [bind, Except.bind]

theorem CatalogDefinition.checkEntities_ok_iff {seen : List String} {es : List EntityDefinition} :
    checkEntities seen es = .ok () ↔ (es.map (·.name)).Nodup ∧
      ∀ e ∈ es, e.name ∉ seen ∧ e.check = .ok () := by
  induction es generalizing seen with
  | nil => simp [checkEntities]
  | cons e es ih =>
    rw [checkEntities, List.forall_mem_cons, ite_error_eq_ok_iff]
    cases hc : e.check with
    | error f => simp [bind, Except.bind]
    | ok u =>
      show _ ∧ checkEntities (e.name :: seen) es = .ok () ↔ _
      rw [ih, nodup_unseen_cons]
      tauto

theorem CatalogDefinition.check_ok_iff {d : CatalogDefinition} :
    d.check = .ok () ↔ d.entities ≠ [] ∧ (d.entities.map (·.name)).Nodup ∧
      ∀ e ∈ d.entities, e.check = .ok () := by
  rw [check, ite_error_eq_ok_iff]
  simp [checkEntities_ok_iff]

theorem FieldDefinition.supports_of_unsupported? {d : FieldDefinition} (h : d.unsupported? = none)
    {id : Nat} {o : Operator} (ho : (Field.ofDefinition id d).allows o = true) :
    d.kind.supports o = true := by
  have hmem : o ∈ (Field.ofDefinition id d).operators := by simpa [Field.allows] using ho
  rw [Field.ofDefinition] at hmem
  cases hl : d.operators with
  | none =>
    simp only [hl] at hmem
    exact ValueKind.supports_of_mem_defaultOperators hmem
  | some listed =>
    simp only [hl, List.mem_filter, decide_eq_true_eq] at hmem
    rw [unsupported?, hl] at h
    simpa using List.find?_eq_none.mp h o hmem.2

theorem map_mapIdx_of_eq {α β γ : Type} {f : Nat → α → β} {g : β → γ} {g' : α → γ}
    (h : ∀ i a, g (f i a) = g' a) (xs : List α) : (xs.mapIdx f).map g = xs.map g' := by
  apply List.ext_getElem?
  intro i
  simp only [List.getElem?_map, List.getElem?_mapIdx, Option.map_map]
  exact congrArg (Option.map · xs[i]?) (funext fun a => h i a)

/-- The names of the fields are those declared, in their order. -/
theorem Entity.names_ofDefinition (id : Nat) (d : EntityDefinition) :
    (Entity.ofDefinition id d).fields.map (·.name) = d.fields.map (·.name) :=
  map_mapIdx_of_eq (by intros; rfl) d.fields

theorem Entity.getElem?_ofDefinition (id : Nat) (d : EntityDefinition) (i : Nat) :
    (Entity.ofDefinition id d).fields[i]? = d.fields[i]?.map (Field.ofDefinition i) :=
  List.getElem?_mapIdx

/-- The id of a field is its position. -/
theorem Entity.id_of_getElem? {id : Nat} {d : EntityDefinition} {i : Nat} {f : Field}
    (h : (Entity.ofDefinition id d).fields[i]? = some f) : f.id = i := by
  rw [getElem?_ofDefinition] at h
  obtain ⟨fd, -, rfl⟩ := Option.map_eq_some_iff.mp h
  rfl

theorem Entity.timeField_ofDefinition {id : Nat} {d : EntityDefinition} {f : Field}
    (h : (Entity.ofDefinition id d).timeField = some f) :
    ∃ name i g, d.timeField = some name ∧ d.fields.find? (·.name == name) = some g ∧
      f = Field.ofDefinition i g := by
  simp only [timeField, ofDefinition, Option.bind_eq_some_iff, field?, List.getElem?_mapIdx,
    Option.map_eq_some_iff] at h
  obtain ⟨i, ⟨name, hname, hi⟩, g, hg, rfl⟩ := h
  refine ⟨name, i, g, hname, ?_, rfl⟩
  rw [List.find?_eq_bind_findIdx?_getElem?, hi]
  exact hg

theorem EntityDefinition.wellFormed_of_check {d : EntityDefinition} (h : d.check = .ok ()) (id : Nat) :
    (Entity.ofDefinition id d).WellFormed := by
  obtain ⟨htable, hne, hfields, htime⟩ := check_ok_iff.mp h
  obtain ⟨hnodup, hfield⟩ := checkFields_ok_iff.mp hfields
  have hmem {f : Field} (hf : f ∈ (Entity.ofDefinition id d).fields) :
      ∃ i, ∃ g ∈ d.fields, f = Field.ofDefinition i g := by
    obtain ⟨i, hi, rfl⟩ := List.mem_mapIdx.mp hf
    exact ⟨i, d.fields[i], List.getElem_mem hi, rfl⟩
  constructor
  · rw [Entity.names_ofDefinition]
    exact hnodup
  · intro hnil
    exact hne (List.mapIdx_eq_nil_iff.mp hnil)
  · exact htable
  · intro f hf
    obtain ⟨i, g, hg, rfl⟩ := hmem hf
    exact (hfield g hg).2.1
  · intro f hf o ho
    obtain ⟨i, g, hg, rfl⟩ := hmem hf
    exact g.supports_of_unsupported? (hfield g hg).2.2 ho
  · intro f hf
    obtain ⟨name, i, g, hname, hg, rfl⟩ := Entity.timeField_ofDefinition hf
    obtain ⟨g', hg', hkind⟩ := (checkTimeField_ok_iff.mp htime).1 name hname
    rw [hg] at hg'
    cases hg'
    exact hkind

namespace Catalog

/-- The names of the entities are those declared, in their order. -/
theorem names_mapIdx (ds : List EntityDefinition) :
    (ds.mapIdx Entity.ofDefinition).map (·.name) = ds.map (·.name) :=
  map_mapIdx_of_eq (by intros; rfl) ds

variable {source : String} {d : CatalogDefinition} {g : UInt64} {c : Catalog}

theorem ofDefinition_eq_ok_iff : Catalog.ofDefinition source d g = .ok c ↔
    d.check = .ok () ∧ { generation := g, entities := d.entities.mapIdx Entity.ofDefinition } = c := by
  rw [ofDefinition]
  cases d.check with
  | error f => exact iff_of_false nofun fun h => by cases h.1
  | ok u => simp

theorem wellFormed_of_ofDefinition (h : Catalog.ofDefinition source d g = .ok c) :
    ∀ e ∈ c.entities, e.WellFormed := by
  obtain ⟨hc, rfl⟩ := ofDefinition_eq_ok_iff.mp h
  intro e he
  obtain ⟨i, hi, rfl⟩ := List.mem_mapIdx.mp he
  have hcheck := (CatalogDefinition.check_ok_iff.mp hc).2.2 _ (List.getElem_mem hi)
  exact EntityDefinition.wellFormed_of_check hcheck i

/-- Entities of an accepted catalog have different names. -/
theorem names_nodup_of_ofDefinition (h : Catalog.ofDefinition source d g = .ok c) :
    (c.entities.map (·.name)).Nodup := by
  obtain ⟨hc, rfl⟩ := ofDefinition_eq_ok_iff.mp h
  rw [names_mapIdx]
  exact (CatalogDefinition.check_ok_iff.mp hc).2.1

/-- The id of a field is its position. -/
theorem id_of_ofDefinition (h : Catalog.ofDefinition source d g = .ok c) {e : Entity}
    (he : e ∈ c.entities) {i : Nat} {f : Field} (hf : e.fields[i]? = some f) : f.id = i := by
  obtain ⟨-, rfl⟩ := ofDefinition_eq_ok_iff.mp h
  obtain ⟨j, hj, rfl⟩ := List.mem_mapIdx.mp he
  exact Entity.id_of_getElem? hf

end Catalog

end CatalogQuery
