import CatalogQuery.Store.Aggregate
import CatalogQuery.Store.Condition
import CatalogQuery.Store.Preparation
/-!
# Running statements

A statement selects from a table: the rows on which all conditions are true, one record to the row or to
the group, sorted, with a window cut out. Where something is ordered by, a label comes before a column of
the same name.
-/
namespace CatalogQuery

def Table.termValue (t : Table) (row : StoredRow) (key : Term) : Cell := t.value row key.name

def Condition.map {α β : Type} (f : α → β) : Condition α → Condition β
  | .compare column op value => .compare column op (f value)
  | .isIn column values => .isIn column (values.map f)
  | .like column pattern => .like column (f pattern)
  | .between column low high => .between column (f low) (f high)

def KeyTest.map {α β : Type} (f : α → β) : KeyTest α → KeyTest β
  | .isNull key => .isNull key
  | .isNotNull key => .isNotNull key
  | .equal key value => .equal key (f value)
  | .above key value => .above key (f value)
  | .below key value => .below key (f value)
  | .belowOrNull key value => .belowOrNull key (f value)

def Condition.hasLongPattern : Condition Cell → Bool
  | .like _ pattern => pattern.exceedsPattern
  | _ => false

/-- A record of the result with the row it was made from, or the row that stands for its group. -/
structure SelectedRecord where
  cells : List Cell
  row : StoredRow
  deriving DecidableEq, Repr

namespace Statement

def map {α β : Type} (f : α → β) (s : Statement α) : Statement β where
  output := s.output
  table := s.table
  conditions := s.conditions.map (Condition.map f)
  keyset := s.keyset.map fun branches => branches.map fun branch => branch.map (KeyTest.map f)
  groupBy := s.groupBy
  orderBy := s.orderBy
  limit := s.limit.map f
  offset := s.offset.map f

/-- The conditions with their values taken as those of their columns. -/
def suitConditions (s : Statement Cell) (t : Table) : List (Condition Cell) :=
  s.conditions.map fun c =>
    match c with
    | .like _ _ => c
    | c => c.map (t.affinity c.column).apply

/-- The statement with its values taken as those of the columns that they are compared with. -/
def suited (s : Statement Cell) (t : Table) : Statement Cell :=
  { s with
    conditions := s.suitConditions t
    keyset := s.keyset.map fun branches =>
      branches.map fun branch => branch.map fun k => k.map (t.affinity k.key.name).apply }

variable {α : Type}

/-- The statement makes one record to the group and not to the row. -/
def isGrouped (s : Statement α) : Bool :=
  !s.groupBy.isEmpty || s.output.any fun o => o.label?.isSome

/-- The truth of the conditions and the keyset predicate on a row. -/
def truth (s : Statement Cell) (t : Table) (row : StoredRow) : Truth :=
  (Truth.all (s.conditions.map (Condition.truth (t.value row)))).and
    (match s.keyset with
    | none => some true
    | some branches => keysetTruth (t.termValue row) branches)

def matching (s : Statement Cell) (t : Table) : List StoredRow :=
  t.numberedRows.filter fun row => s.truth t row == some true

/-- The order of two lists of values, each value by its direction. -/
def orderCells : List Direction → List Cell → List Cell → Ordering
  | d :: ds, a :: as, b :: bs =>
    (match d with
      | .asc => a.order b
      | .desc => b.order a).then (orderCells ds as bs)
  | _, _, _ => .eq

def groupKey (s : Statement Cell) (t : Table) (row : StoredRow) : List Cell :=
  s.groupBy.map (t.value row)

/-- The directions in which the groups come: where there are as many ordering keys as group keys,
those of the ordering keys, whatever these are; otherwise ascending. -/
def groupDirections (s : Statement α) : List Direction :=
  if s.orderBy.length = s.groupBy.length then s.orderBy.map (·.2) else s.groupBy.map fun _ => .asc

def orderGroups (s : Statement Cell) (t : Table) (a b : StoredRow) : Ordering :=
  orderCells s.groupDirections (s.groupKey t a) (s.groupKey t b)

/-- The records are ordered by what they are grouped by, key for key. -/
def ordersByGroupKeys (s : Statement Cell) (t : Table) : Bool :=
  s.orderBy.all (fun o => (s.labelIndex? o.1).isNone) &&
    s.orderBy.map (fun o => t.source? o.1.name) == s.groupBy.map t.source?

/-- The number of the row is among the group keys, so that every row is a group. -/
def groupsByNumber (s : Statement Cell) (t : Table) : Bool :=
  s.groupBy.any fun name => t.source? name == some .rowNumber

/-- The first group key that is no constant is the number of the row. -/
def groupsByNumberFirst (s : Statement Cell) (t : Table) : Bool :=
  let varying := s.groupBy.filterMap fun name =>
    match t.source? name with
    | some (.constant _) => none
    | source => source
  varying.head? == some .rowNumber

/-- The rows in groups, which come in the order of their keys, or of the rows where each of these is a
group and no order of the keys is asked for; all rows are one group where nothing is grouped by. -/
def groups (s : Statement Cell) (t : Table) (rows : List StoredRow) : List (List StoredRow) :=
  if s.groupBy.isEmpty then [rows]
  else if s.groupsByNumber t && !s.ordersByGroupKeys t then rows.map fun row => [row]
  else
    (rows.mergeSort fun a b => s.orderGroups t a b != .gt).splitBy fun a b =>
      s.orderGroups t a b == .eq

/-- The columns of which a least or greatest value is asked, each with the order in which a better
value stands to others, in the order in which they come first. -/
def extremeColumns (s : Statement α) : List (Ordering × String) :=
  (s.output.filterMap fun o =>
    match o with
    | .aggregate .min (some name) _ => some (.lt, name)
    | .aggregate .max (some name) _ => some (.gt, name)
    | _ => none).eraseDups

/-- The better one of two rows by the value of a column; the later one while there are only nulls. -/
def betterRow (t : Table) (o : Ordering) (name : String) (best row : StoredRow) : StoredRow :=
  let c := t.value best name
  let v := t.value row name
  if c.isNull || (!v.isNull && v.order c == o) then row else best

/-- The row that stands for a group where a column is asked for: the best by the last extreme, or the
first where none is asked for. -/
def groupRow (s : Statement Cell) (t : Table) (group : List StoredRow) : StoredRow :=
  match s.extremeColumns.getLast?, group with
  | some (o, name), first :: rest => rest.foldl (betterRow t o name) first
  | _, group => group.headD default

/-- The value of a result column for a group, given the row that stands for it. -/
def groupOutput (t : Table) (group : List StoredRow) (row : StoredRow) (o : Output) :
    Except SelectFault Cell :=
  match o with
  | .column name => .ok (t.value row name)
  | .aggregate f _ _ =>
    let cells :=
      match o.source? with
      | none => group.map fun _ => .integer 1
      | some name => group.map fun row => t.value row name
    match Cell.aggregate? f cells with
    | some c => .ok c
    | none => .error .overflow

def groupRecord (s : Statement Cell) (t : Table) (group : List StoredRow) :
    Except SelectFault SelectedRecord := do
  let row := s.groupRow t group
  let cells ← s.output.mapM (groupOutput t group row)
  .ok ⟨cells, row⟩

def rowRecord (s : Statement Cell) (t : Table) (row : StoredRow) : SelectedRecord :=
  ⟨s.output.map fun o => t.value row (o.source?.getD ""), row⟩

/-- A number of rows; nothing for a negative number, which is no bound. -/
def rowCount? : Cell → Option Nat
  | .integer n => if 0 ≤ n.toInt then some n.toInt.toNat else none
  | _ => none

/-- The groups are made one after the other in the order that is asked for. -/
def isOrderedByGroups (s : Statement Cell) (t : Table) : Bool :=
  s.orderBy.isEmpty ||
    (s.ordersByGroupKeys t && (!s.groupsByNumber t || s.groupsByNumberFirst t))

/-- The groups of which records are made: no more than the window needs, where they come in the order
that is asked for. -/
def neededGroups (s : Statement Cell) (t : Table) : List (List StoredRow) :=
  let groups := s.groups t (s.matching t)
  match s.isOrderedByGroups t, s.limit.bind rowCount? with
  | true, some n => groups.take (((s.offset.bind rowCount?).getD 0) + n)
  | _, _ => groups

def records (s : Statement Cell) (t : Table) : Except SelectFault (List SelectedRecord) :=
  if s.isGrouped then (s.neededGroups t).mapM (s.groupRecord t)
  else .ok ((s.matching t).map (s.rowRecord t))

def orderValue (s : Statement Cell) (t : Table) (r : SelectedRecord) (key : Term) : Cell :=
  match s.labelIndex? key with
  | some i => r.cells.getD i .null
  | none => t.value r.row key.name

def orderRecords (s : Statement Cell) (t : Table) (a b : SelectedRecord) : Ordering :=
  orderCells (s.orderBy.map (·.2)) (s.orderBy.map fun o => s.orderValue t a o.1)
    (s.orderBy.map fun o => s.orderValue t b o.1)

/-- The records sorted, records of equal order as they were. -/
def sorted (s : Statement Cell) (t : Table) (rs : List SelectedRecord) : List SelectedRecord :=
  if s.orderBy.isEmpty then rs else rs.mergeSort fun a b => s.orderRecords t a b != .gt

def window {β : Type} (s : Statement Cell) (rs : List β) : List β :=
  let rest := rs.drop ((s.offset.bind rowCount?).getD 0)
  match s.limit.bind rowCount? with
  | none => rest
  | some n => rest.take n

/-- A pattern is too long, and there is a row on which all conditions in front of it are true. -/
def hasLongPattern (s : Statement Cell) (t : Table) : Bool :=
  let before := s.conditions.takeWhile fun c => !c.hasLongPattern
  before.length < s.conditions.length &&
    t.numberedRows.any fun row => before.all fun c => c.truth (t.value row) == some true

def select (s : Statement Cell) (t : Table) : Except SelectFault (List (List Cell)) :=
  match s.fault? t with
  | some f => .error f
  | none => do
    let s := s.suited t
    if s.hasLongPattern t then .error .patternTooLong
    let rs ← s.records t
    .ok ((s.window (s.sorted t rs)).map (·.cells))

end Statement

end CatalogQuery
