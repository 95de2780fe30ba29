/-!
# Vocabulary of the catalog

The kinds of values a field can hold and the operators a filter can apply, with their wire names.
-/
namespace CatalogQuery

/-- The kinds of values. Timestamps are stored as text. -/
inductive ValueKind
  | string
  | number
  | boolean
  | timestamp
  deriving DecidableEq, Repr, Inhabited

/-- The operators of filters, in the order in which they are listed. -/
inductive Operator
  | eq
  | neq
  | gt
  | gte
  | lt
  | lte
  | isIn
  | like
  | between
  deriving DecidableEq, Repr, Inhabited

namespace ValueKind

def all : List ValueKind := [.string, .number, .boolean, .timestamp]

def name : ValueKind → String
  | .string => "string"
  | .number => "number"
  | .boolean => "boolean"
  | .timestamp => "timestamp"

def ofName? (s : String) : Option ValueKind := all.find? (·.name == s)

/-- Whether an operator can ever apply: patterns are for strings, and booleans have no order. -/
def supports : ValueKind → Operator → Bool
  | .string, .like => true
  | _, .like => false
  | .boolean, .gt | .boolean, .gte | .boolean, .lt | .boolean, .lte | .boolean, .between => false
  | _, _ => true

def defaultOperators : ValueKind → List Operator
  | .string => [.eq, .neq, .isIn, .like]
  | .number => [.eq, .neq, .gt, .gte, .lt, .lte, .isIn, .between]
  | .boolean => [.eq, .neq]
  | .timestamp => [.eq, .neq, .gt, .gte, .lt, .lte, .between]

theorem supports_of_mem_defaultOperators {k : ValueKind} {o : Operator}
    (h : o ∈ k.defaultOperators) : k.supports o = true := by
  revert h
  cases k <;> cases o <;> decide

@[simp] theorem ofName?_name (k : ValueKind) : ofName? k.name = some k := by
  cases k <;> decide

theorem name_of_ofName? {s : String} {k : ValueKind} (h : ofName? s = some k) : k.name = s := by
  simpa using List.find?_some h

end ValueKind

namespace Operator

def all : List Operator := [.eq, .neq, .gt, .gte, .lt, .lte, .isIn, .like, .between]

def name : Operator → String
  | .eq => "eq"
  | .neq => "neq"
  | .gt => "gt"
  | .gte => "gte"
  | .lt => "lt"
  | .lte => "lte"
  | .isIn => "in"
  | .like => "like"
  | .between => "between"

def ofName? (s : String) : Option Operator := all.find? (·.name == s)

theorem mem_all (o : Operator) : o ∈ all := by cases o <;> decide

@[simp] theorem ofName?_name (o : Operator) : ofName? o.name = some o := by
  cases o <;> decide

theorem name_of_ofName? {s : String} {o : Operator} (h : ofName? s = some o) : o.name = s := by
  simpa using List.find?_some h

end Operator

end CatalogQuery
