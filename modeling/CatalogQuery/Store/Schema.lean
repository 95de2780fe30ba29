import CatalogQuery.Store.Table
/-!
# Tables about the store

Besides its own tables a store has some that tell what it is: the list of its tables, one table of one row
for each of its settings, and some that stay empty as long as nothing is asked of them. A table of its
own goes before one of these of the same name.
-/
namespace CatalogQuery.Schema

def columns : List (String × Affinity) :=
  [("type", .text), ("name", .text), ("tbl_name", .text), ("rootpage", .number), ("sql", .text)]

def quoted (name : String) : String := "\"" ++ name ++ "\""

def listed : List String → String
  | [] => ""
  | [s] => s
  | s :: rest => s ++ ", " ++ listed rest

def definition (t : Table) : String :=
  "CREATE TABLE " ++ quoted t.name ++ " (" ++ listed (t.columns.map quoted) ++ ")"

/-- What the list says of a table, given the page on which it begins; a slow one is a view. -/
def entry (t : Table) (page : Nat) : List Cell :=
  [.text (if t.slow then "view" else "table"), .text t.name, .text t.name,
    .integer (if t.slow then 0 else .ofNat page), .text (definition t)]

/-- A list of tables; the first page is that of the list itself. -/
def listOf (name : String) (tables : List Table) : Table :=
  { name, columns := columns.map (·.1), affinities := columns.map (·.2),
    rows := tables.zipIdx.map fun (t, i) => entry t (i + 2) }

def numbers : List (String × Int) :=
  [("analysis_limit", 0), ("application_id", 0), ("auto_vacuum", 0), ("automatic_index", 1),
    ("cache_size", -2000), ("cache_spill", 483), ("cell_size_check", 0), ("checkpoint_fullfsync", 0), ("count_changes", 0),
    ("data_version", 1), ("defer_foreign_keys", 0), ("empty_result_callbacks", 0), ("foreign_keys", 1),
    ("freelist_count", 0), ("full_column_names", 0), ("fullfsync", 0), ("hard_heap_limit", 0),
    ("ignore_check_constraints", 0), ("journal_size_limit", -1), ("legacy_alter_table", 0),
    ("max_page_count", 4294967294), ("page_size", 4096), ("query_only", 0), ("read_uncommitted", 0),
    ("recursive_triggers", 0), ("reverse_unordered_selects", 0), ("secure_delete", 0),
    ("short_column_names", 1), ("soft_heap_limit", 0), ("synchronous", 2), ("temp_store", 0),
    ("threads", 0), ("trusted_schema", 1), ("user_version", 0), ("writable_schema", 0)]

def texts : List (String × String) :=
  [("encoding", "UTF-8"), ("integrity_check", "ok"), ("journal_mode", "memory"),
    ("locking_mode", "normal"), ("quick_check", "ok")]

def emptyTables : List (String × List String) :=
  [("pragma_table_info", ["cid", "name", "type", "notnull", "dflt_value", "pk"]),
    ("pragma_table_xinfo", ["cid", "name", "type", "notnull", "dflt_value", "pk", "hidden"]),
    ("pragma_index_info", ["seqno", "cid", "name"]),
    ("pragma_index_xinfo", ["seqno", "cid", "name", "desc", "coll", "key"]),
    ("pragma_index_list", ["seq", "name", "unique", "origin", "partial"]),
    ("pragma_foreign_key_list",
      ["id", "seq", "table", "from", "to", "on_update", "on_delete", "match"]),
    ("pragma_foreign_key_check", ["table", "rowid", "parent", "fkid"]),
    ("pragma_optimize", ["optimize"]),
    ("json_each", ["key", "value", "type", "atom", "id", "parent", "fullkey", "path"]),
    ("json_tree", ["key", "value", "type", "atom", "id", "parent", "fullkey", "path"])]

def settingTable (setting column : String) (c : Cell) : Table :=
  { name := "pragma_" ++ setting, columns := [column], rows := [[c]] }

def shortEntry (database name kind : String) (columnCount : Nat) : List Cell :=
  [.text database, .text name, .text kind, .integer (.ofNat columnCount), .integer 0, .integer 0]

def shortList (own : List Table) : Table :=
  { name := "pragma_table_list", columns := ["schema", "name", "type", "ncol", "wr", "strict"],
    rows :=
      (own.reverse.map fun t =>
        shortEntry "main" t.name (if t.slow then "view" else "table") t.columns.length) ++
        [shortEntry "main" "sqlite_schema" "table" columns.length,
          shortEntry "temp" "sqlite_temp_schema" "table" columns.length] }

def collations : Table :=
  { name := "pragma_collation_list", columns := ["seq", "name"],
    rows := ["RTRIM", "NOCASE", "BINARY"].zipIdx.map fun (name, i) =>
      [.integer (.ofNat i), .text name] }

def databases : Table :=
  { name := "pragma_database_list", columns := ["seq", "name", "file"],
    rows := [[.integer 0, .text "main", .text ""]] }

/-- The number of pages where every table fits one, with the page of the list of tables. -/
def pageCount (own : List Table) : Nat :=
  if own.isEmpty then 0 else (own.filter fun t => !t.slow).length + 1

def tables (own : List Table) : List Table :=
  [listOf "sqlite_master" own, listOf "sqlite_schema" own, listOf "sqlite_temp_master" [],
    listOf "sqlite_temp_schema" [], shortList own, collations, databases,
    settingTable "busy_timeout" "timeout" (.integer 5000),
    settingTable "default_cache_size" "cache_size" (.integer (-2000)),
    settingTable "schema_version" "schema_version" (.integer (.ofNat own.length)),
    settingTable "page_count" "page_count" (.integer (.ofNat (pageCount own)))] ++
    (numbers.map fun (name, n) => settingTable name name (.integer (.ofInt n))) ++
    (texts.map fun (name, s) => settingTable name name (.text s)) ++
    emptyTables.map fun (name, columns) => { name, columns, rows := [] }

/-- The table of a name: one of the store's own, or one about the store. -/
def find? (own : List Table) (name : String) : Option Table :=
  (own ++ tables own).find? fun t => Text.sameUpToCase t.name name

end CatalogQuery.Schema
