import CatalogQuery.Catalog.Basic
import CatalogQuery.Json.Printer
import CatalogQuery.Json.Record
/-!
# Catalog files

The JSON form of a definition, and loading a catalog from the contents of a file. Absent options
are left out when a definition is written.
-/
namespace CatalogQuery

open Json

def Requirement.name : Requirement → String
  | .timeRange => "REQUIRES_TIME_RANGE"

def Requirement.ofName? (s : String) : Option Requirement :=
  if s = Requirement.name .timeRange then some .timeRange else none

def Json.optionMember {α : Type} (key : String) (f : α → Json) : Option α → List (String × Json)
  | none => []
  | some x => [(key, f x)]

namespace FieldDefinition

def record : Record FieldDefinition :=
  FieldDefinition.mk <$> .required "name" Reader.string
    <*> .required "column" Reader.string
    <*> .required "kind" (Reader.name ValueKind.ofName?)
    <*> .optional "operators" (Reader.list (Reader.name Operator.ofName?))
    <*> .withDefault "unique" Reader.bool false
    <*> .optional "nullable" Reader.bool

def toJson (f : FieldDefinition) : Json :=
  .obj <|
    [("name", .str f.name), ("column", .str f.column), ("kind", .str f.kind.name)] ++
    optionMember "operators" (fun os => .arr (os.map fun o => .str o.name)) f.operators ++
    [("unique", .bool f.unique)] ++
    optionMember "nullable" .bool f.nullable

end FieldDefinition

namespace EntityDefinition

def record : Record EntityDefinition :=
  EntityDefinition.mk <$> .required "name" Reader.string
    <*> .required "table" Reader.string
    <*> .optional "timeField" Reader.string
    <*> .withDefault "requires" (Reader.list (Reader.name Requirement.ofName?)) []
    <*> .required "fields" (Reader.list FieldDefinition.record.reader)

def toJson (e : EntityDefinition) : Json :=
  .obj <|
    [("name", .str e.name), ("table", .str e.table)] ++
    optionMember "timeField" .str e.timeField ++
    [("requires", .arr (e.requires.map fun r => .str r.name)),
     ("fields", .arr (e.fields.map FieldDefinition.toJson))]

end EntityDefinition

namespace CatalogDefinition

def record : Record CatalogDefinition :=
  CatalogDefinition.mk <$> .required "entities" (Reader.list EntityDefinition.record.reader)

def toJson (d : CatalogDefinition) : Json :=
  .obj [("entities", .arr (d.entities.map EntityDefinition.toJson))]

def fileText (d : CatalogDefinition) : String := d.toJson.prettyText

end CatalogDefinition

def Json.Fault.message : Json.Fault → String
  | .malformed => "the text is not JSON"
  | .mismatch => "a value has another type"

namespace Catalog

def readDefinition (path : String) (contents : Except FileFault String) :
    Except CatalogError CatalogDefinition :=
  match contents with
  | .error f => .error (.loadFailed path ("Failed to read file: " ++ f.message))
  | .ok text =>
    match readText CatalogDefinition.record.reader text with
    | .error f => .error (.loadFailed path ("Invalid JSON: " ++ f.message))
    | .ok d =>
      match d.check with
      | .error f => .error (.ofStructure path f)
      | .ok () => .ok d

def load (path : String) (contents : Except FileFault String) (generation : UInt64) :
    Except CatalogError Catalog := do
  let d ← readDefinition path contents
  ofDefinition CatalogError.inMemory d generation

def saveFailed (path : String) (f : FileFault) : CatalogError :=
  .loadFailed path ("Failed to write file: " ++ f.message)

end Catalog

end CatalogQuery
