import CatalogQuery.Catalog.Error
/-!
# Catalogs

A catalog is an arena of entities and their fields. An id is a position, and a name is looked up
among the names of the definition, which are distinct. The generation tells successive catalogs of
one engine apart.
-/
namespace CatalogQuery

/-- A field of the catalog, with what its definition left to defaults filled in. -/
structure Field where
  /-- The position among the fields of the entity, of which there are fewer than `2 ^ 32`. -/
  id : Nat
  name : String
  column : String
  kind : ValueKind
  /-- In the order of `Operator.all`, each once. -/
  operators : List Operator
  unique : Bool
  nullable : Bool
  deriving DecidableEq, Repr, Inhabited

namespace Field

def allows (f : Field) (o : Operator) : Bool := o ∈ f.operators

/-- Its values tell rows apart. -/
def identifiesRows (f : Field) : Bool := f.unique && !f.nullable

def ofDefinition (id : Nat) (d : FieldDefinition) : Field where
  id := id
  name := d.name
  column := d.column
  kind := d.kind
  operators :=
    match d.operators with
    | some listed => Operator.all.filter (· ∈ listed)
    | none => d.kind.defaultOperators
  unique := d.unique
  nullable := d.nullable.getD (!d.unique)

end Field

structure Entity where
  /-- The position among the entities of the catalog, of which there are fewer than `2 ^ 32`. -/
  id : Nat
  name : String
  table : String
  fields : List Field
  requiresTimeRange : Bool
  /-- The position of the time field. -/
  timeFieldId : Option Nat
  deriving DecidableEq, Repr, Inhabited

namespace Entity

def field? (e : Entity) (id : Nat) : Option Field := e.fields[id]?

def fieldNamed? (e : Entity) (name : String) : Option Field := e.fields.find? (·.name == name)

def timeField (e : Entity) : Option Field := e.timeFieldId.bind e.field?

def ofDefinition (id : Nat) (d : EntityDefinition) : Entity where
  id := id
  name := d.name
  table := d.table
  fields := d.fields.mapIdx Field.ofDefinition
  requiresTimeRange := .timeRange ∈ d.requires
  timeFieldId := d.timeField.bind fun name => d.fields.findIdx? (·.name == name)

end Entity

/-- The entities in declared order. -/
structure Catalog where
  generation : UInt64
  entities : List Entity
  deriving DecidableEq, Repr, Inhabited

namespace Catalog

def entity? (c : Catalog) (id : Nat) : Option Entity := c.entities[id]?

def entityNamed? (c : Catalog) (name : String) : Option Entity :=
  c.entities.find? (·.name == name)

/-- Checks a definition and builds its catalog; `source` names the definition in an error. -/
def ofDefinition (source : String) (d : CatalogDefinition) (generation : UInt64) :
    Except CatalogError Catalog :=
  match d.check with
  | .error f => .error (.ofStructure source f)
  | .ok () => .ok { generation, entities := d.entities.mapIdx Entity.ofDefinition }

def withGeneration (c : Catalog) (generation : UInt64) : Catalog := { c with generation }

def resolveEntity (c : Catalog) (name : String) : Except CatalogError Entity :=
  match c.entityNamed? name with
  | some e => .ok e
  | none => .error (.unknownEntity name)

end Catalog

def Entity.resolveField (e : Entity) (name : String) : Except CatalogError Field :=
  match e.fieldNamed? name with
  | some f => .ok f
  | none => .error (.unknownField e.name name)

end CatalogQuery
