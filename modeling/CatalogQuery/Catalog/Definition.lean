import CatalogQuery.Catalog.Vocabulary
import CatalogQuery.Text.Identifier
/-!
# Catalog definitions

What a catalog file says, and the conditions under which it describes a catalog. Entities are
checked in order, each for its name, its table, its fields one by one and its time field; the first
fault found is the answer.
-/
namespace CatalogQuery

structure FieldDefinition where
  name : String
  column : String
  kind : ValueKind
  /-- The operators allowed; those of the kind when absent. -/
  operators : Option (List Operator) := none
  unique : Bool := false
  /-- Whether the column may be null; when absent, unless it is unique. -/
  nullable : Option Bool := none
  deriving DecidableEq, Repr

/-- What every plan on an entity has to bring. -/
inductive Requirement
  | timeRange
  deriving DecidableEq, Repr

structure EntityDefinition where
  name : String
  table : String
  timeField : Option String := none
  requires : List Requirement := []
  fields : List FieldDefinition
  deriving DecidableEq, Repr

structure CatalogDefinition where
  entities : List EntityDefinition
  deriving DecidableEq, Repr

inductive StructureFault
  | noEntities
  | entityTwice (entity : String)
  | tableNotPlain (entity table : String)
  | noFields (entity : String)
  | fieldTwice (entity field : String)
  | columnNotPlain (entity column : String)
  | operatorUnsupported (entity : String) (operator : Operator) (kind : ValueKind) (field : String)
  | timeFieldMissing (entity field : String)
  | timeFieldKind (entity field : String)
  | rangeWithoutTimeField (entity : String)
  deriving DecidableEq, Repr

namespace StructureFault

def message : StructureFault → String
  | .noEntities => "catalog declares no entities"
  | .entityTwice e => "entity '" ++ e ++ "' declared twice"
  | .tableNotPlain e t => "entity '" ++ e ++ "': table '" ++ t ++ "' is not a plain SQL identifier"
  | .noFields e => "entity '" ++ e ++ "' declares no fields"
  | .fieldTwice e f => "entity '" ++ e ++ "': field '" ++ f ++ "' declared twice"
  | .columnNotPlain e c =>
    "entity '" ++ e ++ "': column '" ++ c ++ "' is not a plain SQL identifier"
  | .operatorUnsupported e o k f =>
    "entity '" ++ e ++ "': operator '" ++ o.name ++ "' cannot apply to " ++ k.name ++ " field '" ++
      f ++ "'"
  | .timeFieldMissing e f => "entity '" ++ e ++ "': time field '" ++ f ++ "' is not declared"
  | .timeFieldKind e f => "entity '" ++ e ++ "': time field '" ++ f ++ "' must be a timestamp"
  | .rangeWithoutTimeField e =>
    "entity '" ++ e ++ "' requires a time range but has no time field"

end StructureFault

/-- The first listed operator that the kind does not support. -/
def FieldDefinition.unsupported? (f : FieldDefinition) : Option Operator :=
  (f.operators.getD []).find? fun o => !f.kind.supports o

namespace EntityDefinition

/-- Checks the fields in order; `seen` are the names before them. -/
def checkFields (entity : String) : List String → List FieldDefinition → Except StructureFault Unit
  | _, [] => .ok ()
  | seen, f :: rest =>
    if f.name ∈ seen then .error (.fieldTwice entity f.name)
    else if !Text.isIdentifier f.column then .error (.columnNotPlain entity f.column)
    else
      match f.unsupported? with
      | some o => .error (.operatorUnsupported entity o f.kind f.name)
      | none => checkFields entity (f.name :: seen) rest

/-- A time field has to be a declared timestamp, and a required time range needs one. -/
def checkTimeField (e : EntityDefinition) : Except StructureFault Unit :=
  match e.timeField with
  | some name =>
    match e.fields.find? (·.name == name) with
    | none => .error (.timeFieldMissing e.name name)
    | some f => if f.kind = .timestamp then .ok () else .error (.timeFieldKind e.name name)
  | none =>
    if .timeRange ∈ e.requires then .error (.rangeWithoutTimeField e.name) else .ok ()

def check (e : EntityDefinition) : Except StructureFault Unit :=
  if !Text.isIdentifier e.table then .error (.tableNotPlain e.name e.table)
  else if e.fields.isEmpty then .error (.noFields e.name)
  else do
    checkFields e.name [] e.fields
    e.checkTimeField

end EntityDefinition

namespace CatalogDefinition

/-- Checks the entities in order; `seen` are the names before them. -/
def checkEntities : List String → List EntityDefinition → Except StructureFault Unit
  | _, [] => .ok ()
  | seen, e :: rest =>
    if e.name ∈ seen then .error (.entityTwice e.name)
    else do
      e.check
      checkEntities (e.name :: seen) rest

def check (d : CatalogDefinition) : Except StructureFault Unit :=
  if d.entities.isEmpty then .error .noEntities else checkEntities [] d.entities

end CatalogDefinition

end CatalogQuery
