import CatalogQuery.Engine.Page
import CatalogQuery.Inspect.Plan
import CatalogQuery.Page.Codec
import CatalogQuery.Statement.Compiled
/-!
# Inspecting queries

A compiled query, the statements of its pages and the outcome of a page, as JSON.
-/
namespace CatalogQuery

open Json

/-- The number of placeholders in a text; what else it is made of holds none. -/
def placeholderCount (text : String) : Nat := (text.toList.filter (· == '?')).length

def paramsJson (params : List Param) : Json := .arr (params.map Param.toJson)

def OutputColumn.inspect (c : OutputColumn) : Json :=
  .obj [("name", .str c.name), ("kind", .str c.kind.name)]

def OrderKey.inspect (k : OrderKey) : Json :=
  .obj
    [("expr", .str k.term.text), ("column", .int k.column), ("direction", .str k.direction.keyword),
     ("nullable", .bool k.nullable)]

def CompiledQuery.inspect (q : CompiledQuery) : Json :=
  .obj
    [("entity", .str q.entity), ("operation", .str q.operation.name), ("sql", .str q.base.text),
     ("params", paramsJson q.base.values), ("placeholders", .int (placeholderCount q.base.text)),
     ("columns", .arr (q.columns.map OutputColumn.inspect)),
     ("orderBy", .arr (q.orderBy.map OrderKey.inspect)),
     ("cursorMode", .str q.cursorMode.name), ("fingerprint", .str q.fingerprint),
     ("generation", .int q.generation.toNat)]

def CompiledQuery.inspectPage? (q : CompiledQuery) (pageSize : UInt32) (cursor : Cursor) :
    Option Json :=
  (q.page? pageSize cursor).map fun s =>
    .obj
      [("sql", .str s.text), ("params", paramsJson s.values), ("mode", .str (cursor.mode q).name)]

def PageOutcome.inspect (o : PageOutcome) : Json :=
  .obj
    [("records", .arr (o.records.map .obj)), ("hasMore", .bool o.hasMore),
     ("mode", .str o.mode.name), ("next", ofOption Cursor.toJson o.next)]

def ResolvedPage.inspect (p : ResolvedPage) : Json :=
  .obj
    [("fingerprint", .str p.fingerprint), ("pageSize", .int p.pageSize.toNat),
     ("cursor", p.cursor.toJson), ("page", .int p.page.toNat), ("sql", .str p.query.base.text)]

end CatalogQuery
