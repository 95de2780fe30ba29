import CatalogQuery.Text.Ascii
/-!
# Keywords

The words of the language of statements that name neither a table nor a column where they stand without
quotes. All other words of the language name one where one has the name. Case does not count.
-/
namespace CatalogQuery.Keyword

def reserved : List String :=
  ["add", "all", "alter", "and", "as", "autoincrement", "between", "case", "check", "collate",
    "commit", "constraint", "create", "default", "deferrable", "delete", "distinct", "drop", "else",
    "escape", "except", "exists", "foreign", "from", "group", "having", "in", "index", "insert",
    "intersect", "into", "is", "isnull", "join", "limit", "not", "nothing", "notnull", "on", "or",
    "order", "primary", "references", "returning", "select", "set", "table", "then", "to",
    "transaction", "union", "unique", "update", "using", "values", "when", "where"]

def isAmong (words : List String) (name : String) : Bool :=
  words.any fun word => Text.sameUpToCase word name

def isReservedColumn (name : String) : Bool := isAmong ("cast" :: "raise" :: reserved) name

def isReservedTable (name : String) : Bool := isAmong ("null" :: reserved) name

/-- The word that begins a statement of its own behind an opening parenthesis. -/
def isWith (name : String) : Bool := Text.sameUpToCase "with" name

/-- The word that asks an aggregate to take all values, as it does anyway. -/
def isAll (name : String) : Bool := Text.sameUpToCase "all" name

example : isReservedColumn "Order" = true := by decide +kernel
example : isReservedColumn "key" = false := by decide +kernel

end CatalogQuery.Keyword
