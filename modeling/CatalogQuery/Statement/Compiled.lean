import CatalogQuery.Page.Cursor
import CatalogQuery.Statement.Basic
import CatalogQuery.Statement.Fingerprint
/-!
# Compiled queries

A checked plan becomes one statement. Its text is made of catalog identifiers, fixed words and
checked labels; what the caller sent as values travels as parameters only. A page of the query is
the same statement with a window: one row more than the page holds, so that it shows whether another
page exists, and either a predicate for the rows after a cursor or a number of rows to pass over.
-/
namespace CatalogQuery

structure OrderKey where
  term : Term
  /-- Where the key is among the result columns. -/
  column : Nat
  direction : Direction
  /-- The key may be null. -/
  nullable : Bool
  deriving DecidableEq, Repr, Inhabited

structure CompiledQuery where
  entity : String
  operation : Operation
  base : Statement Param
  columns : List OutputColumn
  orderBy : List OrderKey
  cursorMode : CursorMode
  fingerprint : String
  /-- The generation of the catalog it was compiled with. -/
  generation : UInt64
  deriving DecidableEq, Repr

namespace CheckedPlan

def fieldOutput (f : Field) : Output × OutputColumn := (.column f.column, ⟨f.name, f.kind⟩)

def aggregateOutput (a : CheckedAggregation) : Output × OutputColumn :=
  (.aggregate a.function (a.target.map (·.column)) a.label,
    ⟨a.label, a.function.outputKind (a.target.map (·.kind))⟩)

/-- The result columns: all fields of the entity, or the grouped fields and then the aggregates. -/
def outputs (p : CheckedPlan) : List (Output × OutputColumn) :=
  match p.operation with
  | .list => p.entity.fields.map fieldOutput
  | .aggregate => p.groupBy.map fieldOutput ++ p.aggregations.map aggregateOutput

def filterCondition (f : CheckedFilter) : Condition Param :=
  match f.predicate with
  | .compare op value => .compare f.field.column op (.ofScalar value)
  | .isIn values => .isIn f.field.column (values.map .ofScalar)
  | .like text => .like f.field.column (.text (likePattern text))
  | .between low high => .between f.field.column (.ofScalar low) (.ofScalar high)

/-- Both bounds of the time range, on the time field. -/
def rangeConditions (p : CheckedPlan) : List (Condition Param) :=
  match p.timeRange, p.entity.timeField with
  | some range, some f =>
    [.compare f.column .gte (.ofScalar (.timestamp range.start)),
     .compare f.column .lte (.ofScalar (.timestamp range.finish))]
  | _, _ => []

def columnIndex (columns : List OutputColumn) (name : String) : Nat :=
  (columns.findIdx? (·.name == name)).getD 0

def orderKey (p : CheckedPlan) (columns : List OutputColumn) (o : CheckedOrder) : OrderKey :=
  match o.target with
  | .field f =>
    { term := .column f.column, column := columnIndex columns f.name, direction := o.direction,
      nullable := f.nullable }
  | .aggregate index =>
    let label := (p.aggregations[index]?.map (·.label)).getD ""
    { term := .label label, column := columnIndex columns label, direction := o.direction,
      nullable := true }

/-- The ordering has a field whose values tell rows apart. -/
def tellsRowsApart (p : CheckedPlan) : Bool :=
  p.orderBy.any fun o =>
    match o.target with
    | .field f => f.identifiesRows
    | .aggregate _ => false

def cursorMode (p : CheckedPlan) : CursorMode :=
  if p.operation = .list ∧ p.tellsRowsApart then .keyset else .offset

def compile (p : CheckedPlan) (generation : UInt64) : CompiledQuery :=
  let outputs := p.outputs
  let columns := outputs.map (·.2)
  let orderBy := p.orderBy.map (p.orderKey columns)
  let base : Statement Param :=
    { output := outputs.map (·.1), table := p.entity.table,
      conditions := p.filters.map filterCondition ++ p.rangeConditions,
      groupBy := p.groupBy.map (·.column),
      orderBy := orderBy.map fun k => (k.term, k.direction) }
  { entity := p.entity.name, operation := p.operation, base, columns, orderBy,
    cursorMode := p.cursorMode,
    fingerprint := Fingerprint.of base.text base.values columns, generation }

end CheckedPlan

namespace OrderKey

/-- The test for rows tied with a value. -/
def tied (k : OrderKey) : Param → KeyTest Param
  | .null => .isNull k.term
  | value => .equal k.term value

/-- The test for rows strictly after a value. Null comes before every value, so it is first in
ascending and last in descending order, where no row follows it. -/
def after (k : OrderKey) : Param → Option (KeyTest Param)
  | .null =>
    match k.direction with
    | .asc => some (.isNotNull k.term)
    | .desc => none
  | value =>
    match k.direction with
    | .asc => some (.above k.term value)
    | .desc => some (if k.nullable then .belowOrNull k.term value else .below k.term value)

end OrderKey

/-- The branches of the predicate for rows after the given values: ties on the keys before one key,
and a place after the value of that key. `ties` are the ties so far. -/
def keysetBranches (ties : List (KeyTest Param)) :
    List (OrderKey × Param) → List (List (KeyTest Param))
  | [] => []
  | (k, v) :: rest =>
    let later := keysetBranches (ties ++ [k.tied v]) rest
    match k.after v with
    | some test => (ties ++ [test]) :: later
    | none => later

namespace CompiledQuery

/-- A cursor can locate a page of the query: the values of a keyset cursor match the ordering. -/
def accepts (q : CompiledQuery) : Cursor → Bool
  | .keyset values => q.cursorMode == .keyset && values.length == q.orderBy.length
  | .start | .offset _ => true

theorem accepts_keyset_iff {q : CompiledQuery} {values : List Param} :
    q.accepts (.keyset values) = true ↔
      q.cursorMode = .keyset ∧ values.length = q.orderBy.length := by
  rw [accepts, Bool.and_eq_true, beq_iff_eq, beq_iff_eq]

/-- One more than the rows of a page. -/
def windowLimit (pageSize : UInt32) : Param := .integer (.ofInt (pageSize.toNat + 1))

/-- The greatest integer of sixty-four bits with a sign. -/
def maxOffset : Nat := pow2 63 - 1

def windowOffset (rows : UInt64) : Param := .integer (.ofInt (min rows.toNat maxOffset))

/-- The statement for the page that a cursor locates; nothing if the query does not accept it. -/
def page? (q : CompiledQuery) (pageSize : UInt32) (cursor : Cursor) : Option (Statement Param) :=
  if q.accepts cursor then
    let limited := { q.base with limit := some (windowLimit pageSize) }
    match cursor with
    | .start => some limited
    | .keyset values => some { limited with keyset := some (keysetBranches [] (q.orderBy.zip values)) }
    | .offset rows => some { limited with offset := some (windowOffset rows) }
  else none

theorem page?_isSome {q : CompiledQuery} {pageSize : UInt32} {cursor : Cursor}
    (h : q.accepts cursor = true) : ∃ s, q.page? pageSize cursor = some s := by
  rw [page?, if_pos h]
  cases cursor <;> exact ⟨_, rfl⟩

end CompiledQuery

/-- A record of a page: the values by column name, sorted by name. -/
abbrev Row := List (String × Json)

namespace Cursor

/-- The values of the ordering keys in a row, if all are of the kinds of their columns. -/
def keyValues? (q : CompiledQuery) (row : Row) : Option (List Param) :=
  q.orderBy.mapM fun k => do
    let column ← q.columns[k.column]?
    let value ← row.lookup column.name
    Param.ofKeyValue? column.kind value

/-- The cursor after a full page with the given last row: by the row's key values where the query
has a keyset and the values fit, otherwise by the number of rows so far. -/
def after (q : CompiledQuery) (lastRow : Row) (pageSize page : UInt32) : Cursor :=
  let counted := .offset (.ofNat (page.toNat * pageSize.toNat))
  match q.cursorMode with
  | .offset => counted
  | .keyset =>
    match keyValues? q lastRow with
    | some values => .keyset values
    | none => counted

def mode (q : CompiledQuery) : Cursor → CursorMode
  | .start => q.cursorMode
  | .keyset _ => .keyset
  | .offset _ => .offset

end Cursor

end CatalogQuery
