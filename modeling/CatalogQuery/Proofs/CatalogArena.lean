import CatalogQuery.Proofs.AcceptedCatalog
import Mathlib.Data.List.Forall2
/-!
# Catalogs as arenas

Which definitions describe a catalog, said of the definition alone, and how a catalog mirrors its
definition: entities and fields stand in declared order, an id is a position, and a name leads to what
was declared under it, whether it is searched for or looked up in an index of ids.
-/
namespace CatalogQuery

/-- The column is a plain identifier, and operators that are listed suit the kind. -/
structure FieldDefinition.IsSound (f : FieldDefinition) : Prop where
  column_plain : Text.IsIdentifierSpelling f.column
  operators_supported : ∀ listed, f.operators = some listed →
    ∀ o ∈ listed, f.kind.supports o = true

/-- The table is a plain identifier, the fields are there, sound and of different names, the time
field is one of them and a timestamp, and a time range is required only with a time field. -/
structure EntityDefinition.IsSound (e : EntityDefinition) : Prop where
  table_plain : Text.IsIdentifierSpelling e.table
  fields_ne_nil : e.fields ≠ []
  names_nodup : (e.fields.map (·.name)).Nodup
  fields_sound : ∀ f ∈ e.fields, f.IsSound
  timeField_declared : ∀ name, e.timeField = some name →
    ∃ f ∈ e.fields, f.name = name ∧ f.kind = .timestamp
  range_has_field : .timeRange ∈ e.requires → ∃ name, e.timeField = some name

/-- There are entities, sound ones of different names. -/
structure CatalogDefinition.IsSound (d : CatalogDefinition) : Prop where
  entities_ne_nil : d.entities ≠ []
  names_nodup : (d.entities.map (·.name)).Nodup
  entities_sound : ∀ e ∈ d.entities, e.IsSound

theorem FieldDefinition.unsupported?_eq_none_iff (f : FieldDefinition) :
    f.unsupported? = none ↔
      ∀ listed, f.operators = some listed → ∀ o ∈ listed, f.kind.supports o = true := by
  rw [unsupported?, List.find?_eq_none]
  cases f.operators with
  | none => simp
  | some listed => simp

/-- Fields pass their check just when they are sound and have different names. -/
theorem EntityDefinition.checkFields_ok_iff_isSound (entity : String) (fs : List FieldDefinition) :
    checkFields entity [] fs = .ok () ↔ (fs.map (·.name)).Nodup ∧ ∀ f ∈ fs, f.IsSound := by
  rw [checkFields_ok_iff]
  refine and_congr_right' (forall₂_congr fun f _ => ?_)
  rw [Text.isIdentifier_iff, f.unsupported?_eq_none_iff]
  constructor
  · rintro ⟨-, hcolumn, hoperators⟩
    exact ⟨hcolumn, hoperators⟩
  · rintro ⟨hcolumn, hoperators⟩
    exact ⟨List.not_mem_nil, hcolumn, hoperators⟩

/-- Among fields of different names a time field is found just when it is declared. -/
theorem EntityDefinition.checkTimeField_ok_iff_declared {e : EntityDefinition}
    (hnames : (e.fields.map (·.name)).Nodup) :
    e.checkTimeField = .ok () ↔
      (∀ name, e.timeField = some name → ∃ f ∈ e.fields, f.name = name ∧ f.kind = .timestamp) ∧
        (.timeRange ∈ e.requires → ∃ name, e.timeField = some name) := by
  rw [checkTimeField_ok_iff]
  refine and_congr (forall₂_congr fun name _ => exists_congr fun f => ?_) ?_
  · rw [find?_name_eq_some_iff hnames, and_assoc]
  · rw [Option.ne_none_iff_exists']

theorem EntityDefinition.check_ok_iff_isSound (e : EntityDefinition) : e.check = .ok () ↔ e.IsSound := by
  rw [check_ok_iff, Text.isIdentifier_iff, checkFields_ok_iff_isSound]
  constructor
  · rintro ⟨htable, hfields, ⟨hnames, hsound⟩, htime⟩
    obtain ⟨hdeclared, hrange⟩ := (checkTimeField_ok_iff_declared hnames).mp htime
    exact ⟨htable, hfields, hnames, hsound, hdeclared, hrange⟩
  · intro h
    exact ⟨h.table_plain, h.fields_ne_nil, ⟨h.names_nodup, h.fields_sound⟩,
      (checkTimeField_ok_iff_declared h.names_nodup).mpr ⟨h.timeField_declared, h.range_has_field⟩⟩

theorem CatalogDefinition.check_ok_iff_isSound (d : CatalogDefinition) :
    d.check = .ok () ↔ d.IsSound := by
  rw [check_ok_iff]
  simp only [EntityDefinition.check_ok_iff_isSound]
  constructor
  · rintro ⟨hsome, hnames, hsound⟩
    exact ⟨hsome, hnames, hsound⟩
  · rintro ⟨hsome, hnames, hsound⟩
    exact ⟨hsome, hnames, hsound⟩

-- Elements in an arena: the id of each is its position, and their names are all different.
section Arena

variable {α : Type} {name : α → String} {id : α → Nat} {xs : List α}

theorem getElem?_id (hid : ∀ i x, xs[i]? = some x → id x = i) {x : α} (hx : x ∈ xs) :
    xs[id x]? = some x := by
  obtain ⟨i, hi⟩ := List.mem_iff_getElem?.mp hx
  rw [hid i x hi]
  exact hi

/-- The ids by name, entered in the order of the elements; of two with one name the later stays. -/
def idIndex (name : α → String) (id : α → Nat) (xs : List α) : Std.HashMap String Nat :=
  .ofList (xs.map fun x => (name x, id x))

/-- The index leads from a name to the position of the element that has it. -/
theorem getElem?_idIndex (hnames : (xs.map name).Nodup) (hid : ∀ i x, xs[i]? = some x → id x = i)
    (n : String) (i : Nat) :
    (idIndex name id xs)[n]? = some i ↔ ∃ x, xs[i]? = some x ∧ name x = n := by
  have hdistinct : (xs.map fun x => (name x, id x)).Pairwise fun a b => (a.1 == b.1) = false := by
    rw [List.pairwise_map]
    exact (List.pairwise_map.mp hnames).imp fun h => beq_false_of_ne h
  have hfound {x : α} (hx : x ∈ xs) : (idIndex name id xs)[name x]? = some (id x) :=
    Std.HashMap.getElem?_ofList_of_mem (beq_self_eq_true _) hdistinct
      (List.mem_map.mpr ⟨x, hx, rfl⟩)
  constructor
  · intro hi
    by_cases hmem : n ∈ xs.map name
    · obtain ⟨x, hx, rfl⟩ := List.mem_map.mp hmem
      rw [hfound hx] at hi
      cases hi
      exact ⟨x, getElem?_id hid hx, rfl⟩
    · have hnone : (idIndex name id xs)[n]? = none :=
        Std.HashMap.getElem?_ofList_of_contains_eq_false (by simpa using hmem)
      rw [hnone] at hi
      cases hi
  · rintro ⟨x, hi, rfl⟩
    rw [hfound (List.mem_of_getElem? hi), hid i x hi]

end Arena

/-- The field says what its definition says, with what that leaves to defaults filled in. -/
structure Field.Mirrors (f : Field) (d : FieldDefinition) : Prop where
  name_eq : f.name = d.name
  column_eq : f.column = d.column
  kind_eq : f.kind = d.kind
  allows_iff : ∀ o, f.allows o = true ↔ o ∈ d.operators.getD d.kind.defaultOperators
  supported : ∀ o, f.allows o = true → f.kind.supports o = true
  unique_eq : f.unique = d.unique
  nullable_eq : f.nullable = d.nullable.getD (!d.unique)

def Entity.index (e : Entity) : Std.HashMap String Nat := idIndex (·.name) (·.id) e.fields

def Catalog.index (c : Catalog) : Std.HashMap String Nat := idIndex (·.name) (·.id) c.entities

/-- The entity says what its definition says: its fields mirror those declared, in their order; the
field at its id is the field itself; a name resolves to the field declared under it and to nothing
else; the index leads to the same field; the time field is the one declared. -/
structure Entity.Mirrors (e : Entity) (d : EntityDefinition) : Prop where
  name_eq : e.name = d.name
  table_eq : e.table = d.table
  fields_mirror : List.Forall₂ Field.Mirrors e.fields d.fields
  requiresTimeRange_iff : e.requiresTimeRange = true ↔ .timeRange ∈ d.requires
  field?_id : ∀ f ∈ e.fields, e.field? f.id = some f
  resolveField_iff : ∀ name f, e.resolveField name = .ok f ↔ f ∈ e.fields ∧ f.name = name
  resolves_declared : ∀ i fd, d.fields[i]? = some fd →
    ∃ f, e.field? i = some f ∧ e.resolveField fd.name = .ok f ∧ f.Mirrors fd
  refuses_undeclared : ∀ name, (∀ fd ∈ d.fields, fd.name ≠ name) →
    e.resolveField name = .error (.unknownField e.name name)
  index_iff : ∀ name i, e.index[name]? = some i ↔ ∃ f, e.field? i = some f ∧ f.name = name
  timeField_none : d.timeField = none → e.timeField = none
  timeField_some : ∀ name, d.timeField = some name →
    ∃ f, e.timeField = some f ∧ e.resolveField name = .ok f ∧ f.kind = .timestamp

/-- The catalog says what its definition says, of its entities as an entity of its fields. -/
structure Catalog.Mirrors (c : Catalog) (d : CatalogDefinition) : Prop where
  entities_mirror : List.Forall₂ Entity.Mirrors c.entities d.entities
  entity?_id : ∀ e ∈ c.entities, c.entity? e.id = some e
  resolveEntity_iff : ∀ name e, c.resolveEntity name = .ok e ↔ e ∈ c.entities ∧ e.name = name
  resolves_declared : ∀ i ed, d.entities[i]? = some ed →
    ∃ e, c.entity? i = some e ∧ c.resolveEntity ed.name = .ok e ∧ e.Mirrors ed
  refuses_undeclared : ∀ name, (∀ ed ∈ d.entities, ed.name ≠ name) →
    c.resolveEntity name = .error (.unknownEntity name)
  index_iff : ∀ name i, c.index[name]? = some i ↔ ∃ e, c.entity? i = some e ∧ e.name = name

theorem Field.mem_operators_ofDefinition {id : Nat} {d : FieldDefinition} {o : Operator} :
    (Field.ofDefinition id d).allows o = true ↔ o ∈ d.operators.getD d.kind.defaultOperators := by
  rw [allows, decide_eq_true_eq, ofDefinition]
  cases d.operators with
  | none => rfl
  | some listed =>
    simp only [List.mem_filter, decide_eq_true_eq, Option.getD_some]
    exact and_iff_right (Operator.mem_all o)

theorem FieldDefinition.IsSound.mirrors {d : FieldDefinition} (h : d.IsSound) (id : Nat) :
    (Field.ofDefinition id d).Mirrors d where
  name_eq := rfl
  column_eq := rfl
  kind_eq := rfl
  allows_iff _ := Field.mem_operators_ofDefinition
  supported _ ho :=
    d.supports_of_unsupported? (d.unsupported?_eq_none_iff.mpr h.operators_supported) ho
  unique_eq := rfl
  nullable_eq := rfl

theorem Entity.resolveField_eq_ok_iff {e : Entity} (hnames : (e.fields.map (·.name)).Nodup)
    {name : String} {f : Field} :
    e.resolveField name = .ok f ↔ f ∈ e.fields ∧ f.name = name := by
  rw [← find?_name_eq_some_iff hnames, resolveField, fieldNamed?]
  cases e.fields.find? (·.name == name) with
  | none => exact ⟨nofun, nofun⟩
  | some g => simp

theorem Catalog.resolveEntity_eq_ok_iff {c : Catalog} (hnames : (c.entities.map (·.name)).Nodup)
    {name : String} {e : Entity} :
    c.resolveEntity name = .ok e ↔ e ∈ c.entities ∧ e.name = name := by
  rw [← find?_name_eq_some_iff hnames, resolveEntity, entityNamed?]
  cases c.entities.find? (·.name == name) with
  | none => exact ⟨nofun, nofun⟩
  | some g => simp

/-- What is built of a list by position stands to each element as it is built of it. -/
theorem forall₂_mapIdx {α β : Type} {R : β → α → Prop} {f : Nat → α → β} {xs : List α}
    (h : ∀ i, ∀ x ∈ xs, R (f i x) x) : List.Forall₂ R (xs.mapIdx f) xs := by
  rw [List.forall₂_iff_get]
  refine ⟨List.length_mapIdx, fun i _ hi => ?_⟩
  simpa using h i xs[i] (List.getElem_mem hi)

/-- The position of the time field was found in the definition; a search by name ends there too. -/
theorem Entity.timeField_eq_fieldNamed? {d : EntityDefinition} {name : String}
    (h : d.timeField = some name) (id : Nat) :
    (Entity.ofDefinition id d).timeField = (Entity.ofDefinition id d).fieldNamed? name := by
  have hid : (Entity.ofDefinition id d).timeFieldId = d.fields.findIdx? (·.name == name) := by
    rw [ofDefinition, h]
    rfl
  have hposition : (Entity.ofDefinition id d).fields.findIdx? (·.name == name) =
      d.fields.findIdx? (·.name == name) := by
    have hnames := congrArg (List.findIdx? (· == name)) (names_ofDefinition id d)
    rw [List.findIdx?_map, List.findIdx?_map] at hnames
    exact hnames
  rw [timeField, hid, fieldNamed?, List.find?_eq_bind_findIdx?_getElem?, hposition]
  rfl

/-- The time field is one of the fields. -/
theorem Entity.isSome_field?_timeFieldId {d : EntityDefinition} {id i : Nat}
    (h : (Entity.ofDefinition id d).timeFieldId = some i) :
    ((Entity.ofDefinition id d).field? i).isSome = true := by
  obtain ⟨name, -, hi⟩ := Option.bind_eq_some_iff.mp h
  obtain ⟨hlt, -, -⟩ := List.findIdx?_eq_some_iff_getElem.mp hi
  rw [field?, getElem?_ofDefinition, List.getElem?_eq_getElem hlt]
  rfl

section Entity

variable {d : EntityDefinition} (h : d.IsSound) (id : Nat)

include h

theorem EntityDefinition.IsSound.resolveField_eq_ok_iff {name : String} {f : Field} :
    (Entity.ofDefinition id d).resolveField name = .ok f ↔
      f ∈ (Entity.ofDefinition id d).fields ∧ f.name = name :=
  Entity.resolveField_eq_ok_iff ((Entity.names_ofDefinition id d).symm ▸ h.names_nodup)

theorem EntityDefinition.IsSound.resolves_declared {i : Nat} {fd : FieldDefinition}
    (hfd : d.fields[i]? = some fd) :
    ∃ f, (Entity.ofDefinition id d).field? i = some f ∧
      (Entity.ofDefinition id d).resolveField fd.name = .ok f ∧ f.Mirrors fd := by
  have hf : (Entity.ofDefinition id d).fields[i]? = some (.ofDefinition i fd) := by
    rw [Entity.getElem?_ofDefinition, hfd]
    rfl
  exact ⟨_, hf, (h.resolveField_eq_ok_iff id).mpr ⟨List.mem_of_getElem? hf, rfl⟩,
    (h.fields_sound fd (List.mem_of_getElem? hfd)).mirrors i⟩

theorem EntityDefinition.IsSound.resolves_timeField {name : String}
    (hname : d.timeField = some name) :
    ∃ f, (Entity.ofDefinition id d).timeField = some f ∧
      (Entity.ofDefinition id d).resolveField name = .ok f ∧ f.kind = .timestamp := by
  obtain ⟨fd, hfd, rfl, hkind⟩ := h.timeField_declared name hname
  obtain ⟨i, hi⟩ := List.mem_iff_getElem?.mp hfd
  obtain ⟨f, -, hresolve, hmirrors⟩ := h.resolves_declared id hi
  have hfound := (h.resolveField_eq_ok_iff id).mp hresolve
  refine ⟨f, ?_, hresolve, hmirrors.kind_eq.trans hkind⟩
  rw [Entity.timeField_eq_fieldNamed? hname]
  exact (find?_name_eq_some_iff ((Entity.names_ofDefinition id d).symm ▸ h.names_nodup)).mpr hfound

theorem EntityDefinition.IsSound.mirrors : (Entity.ofDefinition id d).Mirrors d where
  name_eq := rfl
  table_eq := rfl
  fields_mirror := forall₂_mapIdx fun i fd hfd => (h.fields_sound fd hfd).mirrors i
  requiresTimeRange_iff := decide_eq_true_iff
  field?_id _ hf := getElem?_id (fun _ _ => Entity.id_of_getElem?) hf
  resolveField_iff _ _ := h.resolveField_eq_ok_iff id
  resolves_declared _ _ := h.resolves_declared id
  refuses_undeclared name hname := by
    have hnone : (Entity.ofDefinition id d).fieldNamed? name = none := by
      refine List.find?_eq_none.mpr fun f hf => ?_
      obtain ⟨i, hi, rfl⟩ := List.mem_mapIdx.mp hf
      exact fun heq => hname d.fields[i] (List.getElem_mem hi) (eq_of_beq heq)
    rw [Entity.resolveField, hnone]
  index_iff := getElem?_idIndex ((Entity.names_ofDefinition id d).symm ▸ h.names_nodup)
    fun _ _ => Entity.id_of_getElem?
  timeField_none hnone := by
    rw [Entity.timeField, Entity.ofDefinition, hnone]
    rfl
  timeField_some _ := h.resolves_timeField id

end Entity

/-- The catalog that is built of a definition, its entities in declared order. -/
theorem CatalogDefinition.IsSound.mirrors {d : CatalogDefinition} (h : d.IsSound)
    (generation : UInt64) :
    (Catalog.mk generation (d.entities.mapIdx Entity.ofDefinition)).Mirrors d := by
  have hnames : ((d.entities.mapIdx Entity.ofDefinition).map (·.name)).Nodup := by
    rw [Catalog.names_mapIdx]
    exact h.names_nodup
  have hid (i : Nat) (e : Entity) (he : (d.entities.mapIdx Entity.ofDefinition)[i]? = some e) :
      e.id = i := by
    rw [List.getElem?_mapIdx] at he
    obtain ⟨ed, -, rfl⟩ := Option.map_eq_some_iff.mp he
    rfl
  constructor
  case entities_mirror => exact forall₂_mapIdx fun i ed hed => (h.entities_sound ed hed).mirrors i
  case entity?_id => exact fun e he => getElem?_id hid he
  case resolveEntity_iff => exact fun name e => Catalog.resolveEntity_eq_ok_iff hnames
  case resolves_declared =>
    intro i ed hed
    have he : (d.entities.mapIdx Entity.ofDefinition)[i]? = some (.ofDefinition i ed) := by
      rw [List.getElem?_mapIdx, hed]
      rfl
    exact ⟨_, he, (Catalog.resolveEntity_eq_ok_iff hnames).mpr ⟨List.mem_of_getElem? he, rfl⟩,
      (h.entities_sound ed (List.mem_of_getElem? hed)).mirrors i⟩
  case refuses_undeclared =>
    intro name hname
    have hnone : (d.entities.mapIdx Entity.ofDefinition).find? (·.name == name) = none := by
      refine List.find?_eq_none.mpr fun e he => ?_
      obtain ⟨i, hi, rfl⟩ := List.mem_mapIdx.mp he
      exact fun heq => hname d.entities[i] (List.getElem_mem hi) (eq_of_beq heq)
    rw [Catalog.resolveEntity, Catalog.entityNamed?, hnone]
  case index_iff => exact getElem?_idIndex hnames hid

theorem Catalog.mirrors_of_ofDefinition {source : String} {d : CatalogDefinition}
    {generation : UInt64} {c : Catalog} (h : Catalog.ofDefinition source d generation = .ok c) :
    c.Mirrors d := by
  obtain ⟨hcheck, rfl⟩ := ofDefinition_eq_ok_iff.mp h
  exact (d.check_ok_iff_isSound.mp hcheck).mirrors generation

/-- A definition is accepted just when it is sound, and then the catalog mirrors it. -/
theorem Catalog.ofDefinition_faithful (source : String) (d : CatalogDefinition)
    (generation : UInt64) :
    ((∃ c, Catalog.ofDefinition source d generation = .ok c) ↔ d.IsSound) ∧
      ∀ c, Catalog.ofDefinition source d generation = .ok c →
        c.generation = generation ∧ c.Mirrors d := by
  constructor
  · rw [← d.check_ok_iff_isSound]
    constructor
    · rintro ⟨c, hc⟩
      exact (ofDefinition_eq_ok_iff.mp hc).1
    · intro hcheck
      exact ⟨_, ofDefinition_eq_ok_iff.mpr ⟨hcheck, rfl⟩⟩
  · intro c hc
    refine ⟨?_, mirrors_of_ofDefinition hc⟩
    obtain ⟨-, rfl⟩ := ofDefinition_eq_ok_iff.mp hc
    rfl

namespace Shop

/-- Orders, which are asked for in a time range, and the customers who made them. -/
def definition : CatalogDefinition where
  entities :=
    [{ name := "Order", table := "orders", timeField := some "createdAt", requires := [.timeRange],
       fields :=
        [{ name := "id", column := "id", kind := .number, unique := true },
         { name := "status", column := "status", kind := .string, operators := some [.isIn, .eq],
           nullable := some false },
         { name := "createdAt", column := "created_at", kind := .timestamp }] },
     { name := "Customer", table := "customers",
       fields := [{ name := "name", column := "full_name", kind := .string, unique := true,
                    nullable := some true }] }]

def orderId : Field where
  id := 0
  name := "id"
  column := "id"
  kind := .number
  operators := ValueKind.number.defaultOperators
  unique := true
  nullable := false

def status : Field where
  id := 1
  name := "status"
  column := "status"
  kind := .string
  operators := [.eq, .isIn]
  unique := false
  nullable := false

def createdAt : Field where
  id := 2
  name := "createdAt"
  column := "created_at"
  kind := .timestamp
  operators := ValueKind.timestamp.defaultOperators
  unique := false
  nullable := true

def customerName : Field where
  id := 0
  name := "name"
  column := "full_name"
  kind := .string
  operators := ValueKind.string.defaultOperators
  unique := true
  nullable := true

def order : Entity where
  id := 0
  name := "Order"
  table := "orders"
  fields := [orderId, status, createdAt]
  requiresTimeRange := true
  timeFieldId := some 2

def customer : Entity where
  id := 1
  name := "Customer"
  table := "customers"
  fields := [customerName]
  requiresTimeRange := false
  timeFieldId := none

def catalog : Catalog := ⟨1, [order, customer]⟩

theorem ofDefinition_definition :
    Catalog.ofDefinition CatalogError.inMemory definition 1 = .ok catalog := by decide

theorem catalog_mirrors_definition :
    definition.IsSound ∧ catalog.generation = 1 ∧ catalog.Mirrors definition :=
  have hfaithful := Catalog.ofDefinition_faithful CatalogError.inMemory definition 1
  ⟨hfaithful.1.mp ⟨catalog, ofDefinition_definition⟩, hfaithful.2 catalog ofDefinition_definition⟩

end Shop

end CatalogQuery
