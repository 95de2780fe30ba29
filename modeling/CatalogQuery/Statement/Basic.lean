import CatalogQuery.Plan.Checked
import CatalogQuery.Statement.Param
/-!
# Statements

A statement as data, with a value of some type at each placeholder: with parameters it can be run,
and without them it is the template that its text shows. The text and the list of parameters are two
readings of one statement, both from left to right, so the two always have the same length.

Conditions are joined by AND. A keyset predicate is a disjunction of branches, and a branch is a
conjunction of tests of single keys.
-/
namespace CatalogQuery

/-- What an ordering or a key test goes by: a column of the table, or a named result. -/
inductive Term
  | column (name : String)
  | label (name : String)
  deriving DecidableEq, Repr, Inhabited

inductive Condition (α : Type)
  | compare (column : String) (op : Comparison) (value : α)
  | isIn (column : String) (values : List α)
  | like (column : String) (pattern : α)
  | between (column : String) (low high : α)
  deriving DecidableEq, Repr

inductive KeyTest (α : Type)
  | isNull (key : Term)
  | isNotNull (key : Term)
  | equal (key : Term) (value : α)
  | above (key : Term) (value : α)
  | below (key : Term) (value : α)
  | belowOrNull (key : Term) (value : α)
  deriving DecidableEq, Repr

/-- A result column: a column of the table, or an aggregate under a label, its alias. -/
inductive Output
  | column (name : String)
  | aggregate (function : AggregateFunction) (argument : Option String) (label : String)
  deriving DecidableEq, Repr

structure Statement (α : Type) where
  output : List Output
  table : String
  conditions : List (Condition α)
  keyset : Option (List (List (KeyTest α))) := none
  groupBy : List String := []
  orderBy : List (Term × Direction) := []
  limit : Option α := none
  offset : Option α := none
  deriving DecidableEq, Repr

def joinWith (separator : String) : List String → String
  | [] => ""
  | [s] => s
  | s :: rest => s ++ separator ++ joinWith separator rest

def placeholder : String := "?"

def Term.text : Term → String
  | .column name => name
  | .label name => "\"" ++ name ++ "\""

def Condition.text {α : Type} : Condition α → String
  | .compare column op _ => column ++ " " ++ op.sign ++ " " ++ placeholder
  | .isIn column values =>
    column ++ " IN (" ++ joinWith ", " (values.map fun _ => placeholder) ++ ")"
  | .like column _ => column ++ " LIKE " ++ placeholder ++ " ESCAPE '\\'"
  | .between column _ _ => column ++ " BETWEEN " ++ placeholder ++ " AND " ++ placeholder

def KeyTest.text {α : Type} : KeyTest α → String
  | .isNull key => key.text ++ " IS NULL"
  | .isNotNull key => key.text ++ " IS NOT NULL"
  | .equal key _ => key.text ++ " = " ++ placeholder
  | .above key _ => key.text ++ " > " ++ placeholder
  | .below key _ => key.text ++ " < " ++ placeholder
  | .belowOrNull key _ =>
    "(" ++ key.text ++ " < " ++ placeholder ++ " OR " ++ key.text ++ " IS NULL)"

def branchText {α : Type} (branch : List (KeyTest α)) : String :=
  "(" ++ joinWith " AND " (branch.map KeyTest.text) ++ ")"

/-- The branches in parentheses; without branches nothing can follow. -/
def keysetText {α : Type} (branches : List (List (KeyTest α))) : String :=
  match branches with
  | [] => "(0)"
  | branches => "(" ++ joinWith " OR " (branches.map branchText) ++ ")"

def Output.text : Output → String
  | .column name => name
  | .aggregate function argument label =>
    function.keyword ++ "(" ++ argument.getD "*" ++ ") AS \"" ++ label ++ "\""

/-- A clause with its keyword, or nothing when it has no members. -/
def clauseText (keyword separator : String) (members : List String) : String :=
  match members with
  | [] => ""
  | members => " " ++ keyword ++ " " ++ joinWith separator members

namespace Statement

variable {α : Type}

/-- The members of the WHERE clause; the keyset predicate is the last. -/
def whereTexts (s : Statement α) : List String :=
  s.conditions.map Condition.text ++ (s.keyset.map keysetText).toList

def baseText (s : Statement α) : String :=
  "SELECT " ++ joinWith ", " (s.output.map Output.text) ++ " FROM " ++ s.table ++
    clauseText "WHERE" " AND " s.whereTexts ++
    clauseText "GROUP BY" ", " s.groupBy ++
    clauseText "ORDER BY" ", " (s.orderBy.map fun o => o.1.text ++ " " ++ o.2.keyword)

def text (s : Statement α) : String :=
  s.baseText ++ (if s.limit.isSome then " LIMIT " ++ placeholder else "") ++
    (if s.offset.isSome then " OFFSET " ++ placeholder else "")

end Statement

def Condition.values {α : Type} : Condition α → List α
  | .compare _ _ value => [value]
  | .isIn _ values => values
  | .like _ pattern => [pattern]
  | .between _ low high => [low, high]

def KeyTest.values {α : Type} : KeyTest α → List α
  | .isNull _ | .isNotNull _ => []
  | .equal _ value | .above _ value | .below _ value | .belowOrNull _ value => [value]

def Statement.values {α : Type} (s : Statement α) : List α :=
  s.conditions.flatMap Condition.values ++
    (s.keyset.getD []).flatMap (fun branch => branch.flatMap KeyTest.values) ++
    s.limit.toList ++ s.offset.toList

end CatalogQuery
