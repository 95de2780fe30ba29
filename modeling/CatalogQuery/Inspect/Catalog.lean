import CatalogQuery.Catalog.Basic
import CatalogQuery.Json.Access
/-!
# Inspecting catalogs

What a catalog in use says, as JSON, with everything that its definition left to defaults.
-/
namespace CatalogQuery

open Json

def Field.inspect (f : Field) : Json :=
  .obj
    [("name", .str f.name), ("column", .str f.column), ("kind", .str f.kind.name),
     ("operators", .arr (f.operators.map fun o => .str o.name)), ("unique", .bool f.unique),
     ("nullable", .bool f.nullable), ("identifiesRows", .bool f.identifiesRows)]

def Entity.inspect (e : Entity) : Json :=
  .obj
    [("name", .str e.name), ("table", .str e.table),
     ("timeField", ofOption (fun f => .str f.name) e.timeField),
     ("requiresTimeRange", .bool e.requiresTimeRange),
     ("fields", .arr (e.fields.map Field.inspect))]

def Catalog.inspect (c : Catalog) : Json :=
  .obj
    [("generation", .int c.generation.toNat), ("count", .int c.entities.length),
     ("entities", .arr (c.entities.map Entity.inspect))]

/-- What a kind of values admits: the operators it allows by default, and for each operator whether
it can ever apply. -/
def ValueKind.inspect (k : ValueKind) : Json :=
  .obj
    [("defaults", .arr (k.defaultOperators.map fun o => .str o.name)),
     ("supports", .arr (Operator.all.map fun o => .bool (k.supports o)))]

end CatalogQuery
