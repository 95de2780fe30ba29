import CatalogQuery.Proofs.RowGroups
import CatalogQuery.Proofs.RowRecord
/-!
# Statements for groups

A statement with groups or aggregates brings one record to the group, in the order of its keys. Where a
key has the name of a label, up to case, it goes by the result under the first such label. A column
that is asked for is that of one row of the group, which stands for it.
-/
namespace CatalogQuery

open Std

/-- The rows of a group, and the row that stands for it: one of them, if there are any. -/
structure RowGroup where
  rows : List StoredRow
  row : StoredRow
  row_mem : rows ≠ [] → row ∈ rows

/-- The values that an aggregate is made of: a one for every row, where it is of no column. -/
def argumentCells (t : Table) (rows : List StoredRow) : Option String → List Cell
  | none => rows.map fun _ => .integer 1
  | some name => rows.map fun row => t.value row name

/-- The value of a result column for a group, if no sum overflows. -/
def RowGroup.value? (t : Table) (g : RowGroup) : Output → Option Cell
  | .column name => some (t.value g.row name)
  | .aggregate f argument label =>
    Cell.aggregate? f (argumentCells t g.rows (Output.aggregate f argument label).source?)

/-- The value of a result column for a group in which no sum overflows. -/
def RowGroup.cell (t : Table) (g : RowGroup) (o : Output) : Cell := (g.value? t o).getD .null

theorem RowGroup.groupOutput_eq_ok {t : Table} {g : RowGroup} {o : Output}
    (h : (g.value? t o).isSome = true) :
    Statement.groupOutput t g.rows g.row o = .ok (g.cell t o) := by
  obtain ⟨c, hc⟩ := Option.isSome_iff_exists.mp h
  rw [cell, hc]
  cases o with
  | column name =>
    cases hc
    rfl
  | aggregate f argument label =>
    rw [value?] at hc
    rw [Statement.groupOutput]
    cases hsource : (Output.aggregate f argument label).source? with
    | none =>
      rw [hsource, argumentCells] at hc
      simp only [hc]
      rfl
    | some name =>
      rw [hsource, argumentCells] at hc
      simp only [hc]
      rfl

/-- A fold that keeps one of two elements ends with one of all. -/
theorem foldl_mem {α : Type} {f : α → α → α} (hf : ∀ a b, f a b = a ∨ f a b = b) (a : α)
    (xs : List α) : xs.foldl f a ∈ a :: xs := by
  induction xs generalizing a with
  | nil => exact List.mem_singleton_self a
  | cons x xs ih =>
    rw [List.foldl_cons]
    rcases hf a x with h | h
    · rw [h]
      rcases List.mem_cons.mp (ih a) with hmem | hmem
      · rw [hmem]
        exact List.mem_cons_self
      · exact List.mem_cons_of_mem _ (List.mem_cons_of_mem _ hmem)
    · rw [h]
      exact List.mem_cons_of_mem _ (ih x)

namespace Statement

theorem groupRow_mem (s : Statement Cell) (t : Table) {rows : List StoredRow} (h : rows ≠ []) :
    s.groupRow t rows ∈ rows := by
  unfold groupRow
  split
  next o name first rest _ =>
    refine foldl_mem (fun best row => ?_) first rest
    rw [betterRow]
    split
    next => exact .inr rfl
    next => exact .inl rfl
  next =>
    obtain ⟨row, rest, rfl⟩ := List.exists_cons_of_ne_nil h
    exact List.mem_cons_self

def groupOf (s : Statement Cell) (t : Table) (rows : List StoredRow) : RowGroup :=
  ⟨rows, s.groupRow t rows, s.groupRow_mem t⟩

/-- The record of a group in which no sum overflows. -/
def recordOfGroup (s : Statement Cell) (t : Table) (g : RowGroup) : SelectedRecord :=
  ⟨s.output.map (g.cell t), g.row⟩

def orderOfGroups (s : Statement Cell) (t : Table) (g h : RowGroup) : Ordering :=
  s.orderRecords t (s.recordOfGroup t g) (s.recordOfGroup t h)

instance (s : Statement Cell) (t : Table) : TransCmp (s.orderOfGroups t) := by
  have hkeys : TransCmp (keyOrder s.orderBy) := inferInstance
  exact
    { eq_swap := hkeys.eq_swap
      isLE_trans := hkeys.isLE_trans }

def orderedGroups (s : Statement Cell) (t : Table) (rows : List StoredRow) : List RowGroup :=
  ((s.groups t rows).map (s.groupOf t)).mergeSort fun g h => s.orderOfGroups t g h != .gt

theorem pairwise_orderedGroups (s : Statement Cell) (t : Table) (rows : List StoredRow) :
    (s.orderedGroups t rows).Pairwise fun g h => s.orderOfGroups t g h ≠ .gt :=
  pairwise_mergeSort_notAfter (s.orderOfGroups t) _

theorem parts_orderedGroups (s : Statement Cell) {t : Table} {rows : List StoredRow}
    (hrows : rows.Sublist t.numberedRows) (hcount : t.rows.length < pow2 63) :
    Parts s.groupBy t rows ((s.orderedGroups t rows).map (·.rows)) := by
  apply (s.parts_groups t hrows hcount).of_perm
  have hperm : ((s.orderedGroups t rows).map (·.rows)).Perm
      (((s.groups t rows).map (s.groupOf t)).map (·.rows)) := (List.mergeSort_perm _ _).map _
  have hgroups : ((s.groups t rows).map (s.groupOf t)).map (·.rows) = s.groups t rows := by
    rw [List.map_map]
    exact List.map_id _
  rw [hgroups] at hperm
  exact hperm.symm

/-- Without a window a statement needs the records of all groups. -/
theorem neededGroups_eq_groups {s : Statement Cell} (hlimit : s.limit = none) (t : Table) :
    s.neededGroups t = s.groups t (s.matching t) := by
  rw [neededGroups, hlimit]
  cases s.isOrderedByGroups t <;> rfl

/-- The statement makes one record to the group, and shows all of them. -/
structure IsAggregate {α : Type} (s : Statement α) : Prop where
  grouped : s.isGrouped = true
  limit_none : s.limit = none
  offset_none : s.offset = none

namespace IsAggregate

theorem map {α β : Type} {s : Statement α} (hs : s.IsAggregate) (f : α → β) :
    (s.map f).IsAggregate where
  grouped := hs.grouped
  limit_none := by rw [Statement.map, hs.limit_none]; rfl
  offset_none := by rw [Statement.map, hs.offset_none]; rfl

variable {s : Statement Cell} (hs : s.IsAggregate) {t : Table}

include hs

theorem suited (t : Table) : (s.suited t).IsAggregate := ⟨hs.grouped, hs.limit_none, hs.offset_none⟩

theorem records (hsums : ∀ rows ∈ s.groups t (s.matching t), ∀ o ∈ s.output,
      ((s.groupOf t rows).value? t o).isSome = true) :
    s.records t =
      .ok (((s.groups t (s.matching t)).map (s.groupOf t)).map (s.recordOfGroup t)) := by
  rw [Statement.records, if_pos hs.grouped, neededGroups_eq_groups hs.limit_none, List.map_map]
  apply mapM_eq_ok_map
  intro rows hrows
  have hcells : s.output.mapM (groupOutput t rows (s.groupRow t rows)) =
      .ok (s.output.map ((s.groupOf t rows).cell t)) :=
    mapM_eq_ok_map fun o ho => RowGroup.groupOutput_eq_ok (hsums rows hrows o ho)
  rw [groupRecord, hcells]
  rfl

omit hs in
/-- Sorting the records of groups sorts the groups. -/
theorem sorted_map (groups : List RowGroup) :
    s.sorted t (groups.map (s.recordOfGroup t)) =
      (groups.mergeSort fun g h => s.orderOfGroups t g h != .gt).map (s.recordOfGroup t) := by
  rw [sorted_eq_mergeSort, List.map_mergeSort]
  exact fun g _ h _ => rfl

theorem select (hfault : s.fault? t = none) (hpattern : (s.suited t).hasLongPattern t = false)
    (hsums : ∀ rows ∈ s.groups t ((s.suited t).matching t), ∀ o ∈ s.output,
      ((s.groupOf t rows).value? t o).isSome = true) :
    s.select t = .ok ((s.orderedGroups t ((s.suited t).matching t)).map fun g =>
      s.output.map (g.cell t)) := by
  refine select_eq_ok_iff.mpr ⟨hfault, hpattern, _, (hs.suited t).records hsums, ?_⟩
  rw [sorted_map, window_eq_self (s := s.suited t) hs.limit_none hs.offset_none, List.map_map]
  rfl

end IsAggregate

/-- An extreme is of a column that is the argument of an aggregate. -/
theorem extreme_mem_columnNames {α : Type} {s : Statement α} {column : Ordering × String}
    (h : column ∈ s.extremeColumns) : column.2 ∈ s.columnNames := by
  rw [extremeColumns, List.mem_eraseDups] at h
  obtain ⟨o, ho, hcolumn⟩ := List.mem_filterMap.mp h
  split at hcolumn
  next name label =>
    cases hcolumn
    exact output_mem_columnNames ho rfl
  next name label =>
    cases hcolumn
    exact output_mem_columnNames ho rfl
  next => cases hcolumn

section ReadAt

variable {s : Statement Cell} {t : Table} (hnames : ∀ name ∈ s.columnNames, t.stores name = true)
  (now : Int)

include hnames

theorem orderGroups_readAt : s.orderGroups { t with readAt := now } = s.orderGroups t := by
  have hkey (row : StoredRow) : s.groupKey { t with readAt := now } row = s.groupKey t row :=
    List.map_congr_left fun name hname =>
      Table.value_readAt (hnames name (group_mem_columnNames hname)) now row
  funext a b
  rw [orderGroups, orderGroups, hkey, hkey]

theorem ordersByGroupKeys_readAt :
    s.ordersByGroupKeys { t with readAt := now } = s.ordersByGroupKeys t := by
  have hgroup : s.groupBy.map (Table.source? { t with readAt := now }) = s.groupBy.map t.source? :=
    List.map_congr_left fun name hname =>
      Table.source?_readAt (hnames name (group_mem_columnNames hname)) now
  rw [ordersByGroupKeys, ordersByGroupKeys, hgroup]
  cases hlabels : s.orderBy.all fun o => (s.labelIndex? o.1).isNone with
  | false => rw [Bool.false_and, Bool.false_and]
  | true =>
    rw [List.all_eq_true] at hlabels
    have horder : s.orderBy.map (fun o => Table.source? { t with readAt := now } o.1.name) =
        s.orderBy.map fun o => t.source? o.1.name := by
      apply List.map_congr_left
      intro o ho
      exact Table.source?_readAt
        (hnames _ (order_mem_columnNames ho (Option.isNone_iff_eq_none.mp (hlabels o ho)))) now
    rw [horder]

theorem groupsByNumber_readAt :
    s.groupsByNumber { t with readAt := now } = s.groupsByNumber t := by
  rw [groupsByNumber, groupsByNumber, Bool.eq_iff_iff, List.any_eq_true, List.any_eq_true]
  apply exists_congr
  intro name
  apply and_congr_right
  intro hname
  rw [Table.source?_readAt (hnames name (group_mem_columnNames hname)) now]

theorem groups_readAt (rows : List StoredRow) :
    s.groups { t with readAt := now } rows = s.groups t rows := by
  rw [groups, groups, groupsByNumber_readAt hnames, ordersByGroupKeys_readAt hnames,
    orderGroups_readAt hnames]

theorem groupRow_readAt (rows : List StoredRow) :
    s.groupRow { t with readAt := now } rows = s.groupRow t rows := by
  unfold groupRow
  split
  next o name first rest hextreme =>
    have hname := hnames name (extreme_mem_columnNames (List.mem_of_getLast? hextreme))
    have hbetter : betterRow { t with readAt := now } o name = betterRow t o name := by
      funext best row
      simp only [betterRow, Table.value_readAt hname]
    rw [hbetter]
  next => rfl

theorem groupOf_readAt : s.groupOf { t with readAt := now } = s.groupOf t := by
  funext rows
  simp only [groupOf, groupRow_readAt hnames]

theorem value?_readAt (g : RowGroup) {o : Output} (ho : o ∈ s.output) :
    g.value? { t with readAt := now } o = g.value? t o := by
  cases o with
  | column name =>
    exact congrArg some (Table.value_readAt (hnames name (output_mem_columnNames ho rfl)) now g.row)
  | aggregate f argument label =>
    rw [RowGroup.value?, RowGroup.value?]
    cases hsource : (Output.aggregate f argument label).source? with
    | none => rfl
    | some name =>
      have hname := hnames name (output_mem_columnNames ho hsource)
      have hcells : argumentCells { t with readAt := now } g.rows (some name) =
          argumentCells t g.rows (some name) :=
        List.map_congr_left fun row _ => Table.value_readAt hname now row
      rw [hcells]

theorem recordOfGroup_readAt :
    s.recordOfGroup { t with readAt := now } = s.recordOfGroup t := by
  funext g
  have hcells : s.output.map (g.cell { t with readAt := now }) = s.output.map (g.cell t) :=
    List.map_congr_left fun o ho => by
      rw [RowGroup.cell, RowGroup.cell, value?_readAt hnames now g ho]
  rw [recordOfGroup, recordOfGroup, hcells]

theorem orderOfGroups_readAt :
    s.orderOfGroups { t with readAt := now } = s.orderOfGroups t := by
  have hvalue (r : SelectedRecord) : s.orderBy.map (fun o => s.orderValue { t with readAt := now } r o.1) =
      s.orderBy.map fun o => s.orderValue t r o.1 := by
    apply List.map_congr_left
    intro o ho
    rw [orderValue, orderValue]
    cases hlabel : s.labelIndex? o.1 with
    | some i => rfl
    | none => exact Table.value_readAt (hnames _ (order_mem_columnNames ho hlabel)) now r.row
  funext g h
  rw [orderOfGroups, orderOfGroups, recordOfGroup_readAt hnames, orderRecords, orderRecords, hvalue,
    hvalue]

theorem orderedGroups_readAt (rows : List StoredRow) :
    s.orderedGroups { t with readAt := now } rows = s.orderedGroups t rows := by
  rw [orderedGroups, orderedGroups, groups_readAt hnames, groupOf_readAt hnames,
    orderOfGroups_readAt hnames]

end ReadAt

end Statement

/-- What a statement for groups brings, whenever it is run: the values of its result columns in its
groups, as records. -/
theorem Store.fetch_groups {store : Store} {t : Table} {s : Statement Param} {timeoutMs : UInt64}
    (now : Int) (columns : List OutputColumn) (hstore : store.Serves s.table t) (hs : s.IsAggregate)
    (hreserved : s.reservedWord? = none) (hlimits : s.IsWithinLimits timeoutMs)
    (hnames : ∀ name ∈ s.columnNames, t.stores name = true) {matching : List StoredRow}
    (hmatching : ((s.map Cell.ofParam).suited t).matching t = matching)
    (hsums : ∀ rows ∈ (s.map Cell.ofParam).groups t matching, ∀ o ∈ s.output,
      (((s.map Cell.ofParam).groupOf t rows).value? t o).isSome = true) :
    store.fetch now timeoutMs s columns =
      decodeRows columns (((s.map Cell.ofParam).orderedGroups t matching).map fun g =>
        s.output.map (g.cell t)) := by
  have hcells := hs.map Cell.ofParam
  have hnamesCells : ∀ name ∈ (s.map Cell.ofParam).columnNames, t.stores name = true := by
    rw [Statement.columnNames_map]
    exact hnames
  have hnamesSuited : ∀ name ∈ ((s.map Cell.ofParam).suited t).columnNames, t.stores name = true := by
    rw [Statement.columnNames_suited]
    exact hnamesCells
  have hrows : ((s.map Cell.ofParam).suited { t with readAt := now }).matching
      { t with readAt := now } = matching := by
    rw [Statement.suited_readAt hnamesCells, Statement.matching_readAt hnamesSuited, hmatching]
  have hselect := hcells.select (hlimits.fault?_eq_none hreserved hnames now)
    (hlimits.hasLongPattern_eq_false t now) (by
      rw [hrows, Statement.groups_readAt hnamesCells]
      intro rows hmem o ho
      rw [Statement.groupOf_readAt hnamesCells, Statement.value?_readAt hnamesCells now _ ho]
      exact hsums rows hmem o ho)
  rw [hrows, Statement.orderedGroups_readAt hnamesCells] at hselect
  have houtput (g : RowGroup) : s.output.map (g.cell { t with readAt := now }) =
      s.output.map (g.cell t) :=
    List.map_congr_left fun o ho => by
      rw [RowGroup.cell, RowGroup.cell, Statement.value?_readAt hnamesCells now g ho]
  have hrecords : (fun g : RowGroup => (s.map Cell.ofParam).output.map (g.cell { t with readAt := now })) =
      fun g => s.output.map (g.cell t) := funext houtput
  rw [hrecords] at hselect
  exact fetch_eq_decodeRows hstore hlimits.time hselect

end CatalogQuery
