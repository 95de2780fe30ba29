import CatalogQuery.Statement.Basic
import CatalogQuery.Store.Keyword
import CatalogQuery.Store.Table
/-!
# Preparing statements

What is wrong with a statement on a table before it runs: it uses a reserved word for a name, it names
what the table does not have, or it is too large. Besides, a statement with many ordering keys takes
long to prepare.
-/
namespace CatalogQuery

/-- Why a statement on a table fails. -/
inductive SelectFault
  | reserved (word : String)
  | noColumn (name : String)
  | tooLarge
  | patternTooLong
  | overflow
  deriving DecidableEq, Repr

def SelectFault.message : SelectFault → String
  | .reserved word => "near \"" ++ word ++ "\": syntax error"
  | .noColumn name => "no such column: " ++ name
  | .tooLarge => "statement too large"
  | .patternTooLong => "LIKE or GLOB pattern too complex"
  | .overflow => "integer overflow"

def Output.label? : Output → Option String
  | .column _ => none
  | .aggregate _ _ label => some label

/-- The name that a result column is made from, if it is made from one. A count of all values in so
many words counts rows. -/
def Output.source? : Output → Option String
  | .column name => some name
  | .aggregate .count argument _ => argument.filter fun name => !Keyword.isAll name
  | .aggregate _ argument _ => argument

def Term.name : Term → String
  | .column name | .label name => name

def Condition.column {α : Type} : Condition α → String
  | .compare column _ _ | .isIn column _ | .like column _ | .between column _ _ => column

def KeyTest.key {α : Type} : KeyTest α → Term
  | .isNull key | .isNotNull key | .equal key _ | .above key _ | .below key _
  | .belowOrNull key _ => key

/-- The key behind the parenthesis that the test opens. -/
def KeyTest.enclosedKey? {α : Type} : KeyTest α → Option Term
  | .belowOrNull key _ => some key
  | _ => none

/-- The height of the tree of operators that join parts of these heights, from the left. -/
def chainHeight : List Nat → Nat
  | [] => 1
  | h :: hs => hs.foldl (fun height h => max height h + 1) h

def KeyTest.height {α : Type} : KeyTest α → Nat
  | .belowOrNull _ _ => 3
  | _ => 2

namespace Statement

variable {α : Type}

/-- The result column that an ordering goes by, if it goes by a label. -/
def labelIndex? (s : Statement α) (t : Term) : Option Nat :=
  s.output.findIdx? fun o =>
    match o.label? with
    | none => false
    | some label => Text.sameUpToCase label t.name

/-- The names in the statement that are not labels. -/
def columnNames (s : Statement α) : List String :=
  s.output.filterMap Output.source? ++ s.conditions.map Condition.column ++
    (s.keyset.getD []).flatMap (fun branch => branch.map fun k => k.key.name) ++ s.groupBy ++
    (s.orderBy.filter fun o => (s.labelIndex? o.1).isNone).map fun o => o.1.name

/-- The names that stand behind an opening parenthesis. -/
def enclosedNames (s : Statement α) : List String :=
  (s.keyset.getD []).flatMap fun branch =>
    (branch.head?.toList.map fun k => k.key.name) ++
      (branch.filterMap KeyTest.enclosedKey?).map Term.name

/-- The first reserved word that is used as a name. -/
def reservedWord? (s : Statement α) : Option String :=
  (([s.table].filter Keyword.isReservedTable) ++ s.columnNames.filter Keyword.isReservedColumn ++
    s.enclosedNames.filter Keyword.isWith).head?

def conditionHeight (s : Statement α) : Nat :=
  chainHeight <|
    (s.conditions.map fun _ => 2) ++
      (s.keyset.map fun branches =>
        chainHeight (branches.map fun branch => chainHeight (branch.map KeyTest.height))).toList

def heightLimit : Nat := 1000

def placeholderLimit : Nat := 32766

/-- The greatest number of result columns, of ordering keys and of group keys. -/
def columnLimit : Nat := 2000

def isTooLarge (s : Statement α) : Bool :=
  heightLimit < s.conditionHeight || placeholderLimit < s.values.length ||
    [s.output.length, s.orderBy.length, s.groupBy.length].any (columnLimit < ·)

def fault? (s : Statement α) (t : Table) : Option SelectFault :=
  match s.reservedWord?, s.columnNames.find? fun name => (t.source? name).isNone with
  | some word, _ => some (.reserved word)
  | none, some name => some (.noColumn name)
  | none, none => if s.isTooLarge then some .tooLarge else none

/-- How long it takes to prepare the statement, in milliseconds: the time grows with the fourth power
of the number of branches, and two hundred of them take five seconds. -/
def preparationMs (s : Statement α) : Nat :=
  let n := (s.keyset.getD []).length
  n * n * n * n / 320000

end Statement

example : chainHeight (List.replicate 999 2) = 1000 := by decide +kernel

end CatalogQuery
