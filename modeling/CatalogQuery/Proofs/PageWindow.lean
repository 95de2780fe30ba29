import CatalogQuery.Proofs.GroupedStatement
import CatalogQuery.Proofs.PageAnswer
/-!
# Windows of a result

A statement with a window shows a part of what the statement shows without it: so many records, after
passing over so many. This is asked of a backend, and a store does it wherever it shows the whole: it may
leave out groups that the window does not need, but only where these come in the order of their records.
-/
namespace CatalogQuery

/-- The backend brings the records for the statement of the query and, for a statement with a window, the
part of them that the window shows. -/
structure CompiledQuery.BringsWindows (q : CompiledQuery) (backend : Backend) (records : List Row) :
    Prop where
  whole : backend q.base q.columns = .ok records
  first (count : Int64) (hcount : 0 ≤ count.toInt) :
    backend { q.base with limit := some (.integer count) } q.columns =
      .ok (records.take count.toInt.toNat)
  later (count skipped : Int64) (hcount : 0 ≤ count.toInt) (hskipped : 0 ≤ skipped.toInt) :
    backend { q.base with limit := some (.integer count), offset := some (.integer skipped) } q.columns =
      .ok ((records.drop skipped.toInt.toNat).take count.toInt.toNat)

/-- A number of rows below the sixty-third power of two is passed over as it is. -/
theorem toInt_windowOffset {rows : Nat} (hrows : rows < pow2 63) :
    (Int64.ofInt (min ((UInt64.ofNat rows).toNat : Int) CompiledQuery.maxOffset)).toInt = rows := by
  have hpow : pow2 63 = 2 ^ 63 := rfl
  have hnat : (UInt64.ofNat rows).toNat = rows := by
    rw [UInt64.toNat_ofNat']
    omega
  have hmax : CompiledQuery.maxOffset = 2 ^ 63 - 1 := rfl
  rw [hnat, Int.min_eq_left (by omega)]
  exact Int64.toInt_ofInt_of_le (by omega) (by omega)

namespace CompiledQuery.BringsWindows

variable {q : CompiledQuery} {backend : Backend} {records : List Row}

/-- The first page has one record more than it holds, if there are so many. -/
theorem start (h : q.BringsWindows backend records) (pageSize : UInt32) :
    backend { q.base with limit := some (windowLimit pageSize) } q.columns =
      .ok (records.take (pageSize.toNat + 1)) := by
  have hint := toInt_windowLimit pageSize
  have hfirst := h.first _ (by rw [hint]; omega)
  rw [hint] at hfirst
  exact hfirst

/-- The page after a number of rows has one record more than it holds, if there are so many left. -/
theorem counted (h : q.BringsWindows backend records) (pageSize : UInt32) {rows : Nat}
    (hrows : rows < pow2 63) :
    backend { q.base with
        limit := some (windowLimit pageSize), offset := some (windowOffset (.ofNat rows)) } q.columns =
      .ok ((records.drop rows).take (pageSize.toNat + 1)) := by
  have hint := toInt_windowLimit pageSize
  have hoffset := toInt_windowOffset hrows
  have hlater := h.later _ _ (by rw [hint]; omega) (by rw [hoffset]; omega)
  rw [hint, hoffset, Int.toNat_natCast] at hlater
  exact hlater

end CompiledQuery.BringsWindows

namespace Statement

def windowed {α : Type} (s : Statement α) (limit offset : Option α) : Statement α :=
  { s with limit, offset }

/-- A window has a part in the size of a statement, but its numbers have not. -/
theorem isTooLarge_windowed {α : Type} {s : Statement α} {count skipped : α}
    (h : (s.windowed (some count) (some skipped)).isTooLarge = false) (limit offset : Option α) :
    (s.windowed limit offset).isTooLarge = false := by
  have hlength : (s.windowed limit offset).values.length ≤
      (s.windowed (some count) (some skipped)).values.length := by
    have hlimit : limit.toList.length ≤ 1 := by cases limit <;> simp
    have hoffset : offset.toList.length ≤ 1 := by cases offset <;> simp
    simp only [values, windowed, List.length_append, Option.toList_some, List.length_singleton]
    omega
  have hheight : (s.windowed limit offset).conditionHeight =
      (s.windowed (some count) (some skipped)).conditionHeight := rfl
  simp only [isTooLarge, Bool.or_eq_false_iff, decide_eq_false_iff_not] at h ⊢
  rw [hheight]
  exact ⟨⟨h.1.1, by omega⟩, h.2⟩

/-- With a window a statement has no other faults than the size that this brings with it. -/
theorem fault?_windowed {s : Statement Cell} {t : Table} (h : s.fault? t = none)
    {limit offset : Option Cell} (hsize : (s.windowed limit offset).isTooLarge = false) :
    (s.windowed limit offset).fault? t = none := by
  have hword : (s.windowed limit offset).reservedWord? = s.reservedWord? := rfl
  have hnames : (s.windowed limit offset).columnNames = s.columnNames := rfl
  rw [fault?] at h
  rw [fault?, hword, hnames, hsize]
  split at h
  next => cases h
  next => cases h
  next => rfl

end Statement

theorem exists_map_of_mapM_eq_ok {α β ε : Type} [Nonempty β] {f : α → Except ε β} {xs : List α}
    {ys : List β} (h : xs.mapM f = .ok ys) :
    ∃ g : α → β, (∀ x ∈ xs, f x = .ok (g x)) ∧ ys = xs.map g := by
  have hok := exists_of_mapM_eq_ok h
  choose! g hg using hok
  rw [mapM_eq_ok_map hg] at h
  exact ⟨g, hg, (Except.ok.inj h).symm⟩

namespace Statement

variable {s : Statement Cell} {t : Table}

/-- Records that come in order are sorted as they are. -/
theorem sorted_eq_self {rs : List SelectedRecord}
    (h : rs.Pairwise fun a b => s.orderRecords t a b ≠ .gt) : s.sorted t rs = rs := by
  rw [sorted_eq_mergeSort]
  exact List.mergeSort_of_pairwise (h.imp fun hab => by simpa using hab)

theorem groupRecord_row {group : List StoredRow} {r : SelectedRecord}
    (h : s.groupRecord t group = .ok r) : r.row = s.groupRow t group := by
  rw [groupRecord] at h
  cases hcells : s.output.mapM (groupOutput t group (s.groupRow t group)) with
  | error e =>
    simp only [hcells] at h
    cases h
  | ok cells =>
    simp only [hcells] at h
    cases h
    rfl

/-- Where the records are ordered by what they are grouped by, they are ordered as the groups are. -/
theorem orderRecords_eq_orderGroups (h : s.ordersByGroupKeys t = true) (a b : SelectedRecord) :
    s.orderRecords t a b = s.orderGroups t a.row b.row := by
  obtain ⟨hlabels, hsources⟩ := Bool.and_eq_true_iff.mp h
  rw [List.all_eq_true] at hlabels
  have hsources := eq_of_beq hsources
  have hlength : s.orderBy.length = s.groupBy.length := by
    simpa using congrArg List.length hsources
  have hvalues (r : SelectedRecord) :
      s.orderBy.map (fun o => s.orderValue t r o.1) = s.groupKey t r.row := by
    have hvalue (o : Term × Direction) (ho : o ∈ s.orderBy) :
        s.orderValue t r o.1 = ((t.source? o.1.name).map (Source.value r.row)).getD .null := by
      rw [orderValue, Option.isNone_iff_eq_none.mp (hlabels o ho)]
      rfl
    have hkeys := congrArg
      (List.map fun source : Option Source => (source.map (Source.value r.row)).getD .null) hsources
    rw [List.map_map, List.map_map] at hkeys
    rw [List.map_congr_left hvalue]
    exact hkeys
  rw [orderRecords, orderGroups, hvalues, hvalues, groupDirections, if_pos hlength]

/-- Groups that are made in the order that is asked for have their records in this order. -/
theorem pairwise_groupRecords (h : s.isOrderedByGroups t = true) (rows : List StoredRow)
    {record : List StoredRow → SelectedRecord}
    (hrow : ∀ group ∈ s.groups t rows, (record group).row = s.groupRow t group) :
    ((s.groups t rows).map record).Pairwise fun a b => s.orderRecords t a b ≠ .gt := by
  rcases Bool.or_eq_true_iff.mp h with hnone | hkeys
  · apply List.pairwise_of_forall
    intro a b
    rw [orderRecords_eq_keyOrder, List.isEmpty_iff.mp hnone, keyOrder_nil]
    decide
  · obtain ⟨hkeys, -⟩ := Bool.and_eq_true_iff.mp hkeys
    rw [groups] at hrow ⊢
    split at hrow
    next hnil =>
      rw [if_pos hnil]
      exact List.pairwise_singleton _ _
    next hsome =>
      have hblocks : (blocks (s.orderGroups t) rows).Pairwise fun g h =>
          ∀ a ∈ g, ∀ b ∈ h, s.orderGroups t a b = .lt := pairwise_blocks
      have hnonempty : ∀ g ∈ blocks (s.orderGroups t) rows, g ≠ [] := by
        rintro g hg rfl
        exact List.nil_notMem_splitBy _ _ hg
      simp only [hkeys, Bool.not_true, Bool.and_false, Bool.false_eq_true, if_false] at hrow
      rw [if_neg hsome]
      simp only [hkeys, Bool.not_true, Bool.and_false, Bool.false_eq_true, if_false]
      rw [List.pairwise_map]
      refine hblocks.imp_of_mem fun {g h} hg hh hgh => ?_
      rw [orderRecords_eq_orderGroups hkeys, hrow g hg, hrow h hh,
        hgh _ (s.groupRow_mem t (hnonempty g hg)) _ (s.groupRow_mem t (hnonempty h hh))]
      decide

/-- Groups are left out only where they come in order and the window ends in front of them. -/
theorem neededGroups_windowed (limit offset : Option Cell) :
    (s.windowed limit offset).neededGroups t = s.groups t (s.matching t) ∨
      ∃ count, s.isOrderedByGroups t = true ∧ limit.bind rowCount? = some count ∧
        (s.windowed limit offset).neededGroups t =
          (s.groups t (s.matching t)).take ((offset.bind rowCount?).getD 0 + count) := by
  have hordered : (s.windowed limit offset).isOrderedByGroups t = s.isOrderedByGroups t := rfl
  have hlimit : (s.windowed limit offset).limit.bind rowCount? = limit.bind rowCount? := rfl
  rw [neededGroups, hordered, hlimit]
  cases s.isOrderedByGroups t with
  | false => exact .inl rfl
  | true =>
    cases limit.bind rowCount? with
    | none => exact .inl rfl
    | some count => exact .inr ⟨count, rfl, rfl, rfl⟩

/-- A window shows the same of the records that are made for it as of all. -/
theorem records_windowed {rs : List SelectedRecord} (hlimit : s.limit = none)
    (h : s.records t = .ok rs) (limit offset : Option Cell) :
    ∃ made, (s.windowed limit offset).records t = .ok made ∧
      (s.windowed limit offset).window (s.sorted t made) =
        (s.windowed limit offset).window (s.sorted t rs) := by
  have hgrouped : (s.windowed limit offset).isGrouped = s.isGrouped := rfl
  have hrecord : (s.windowed limit offset).groupRecord t = s.groupRecord t := rfl
  rw [records] at h
  rw [records, hgrouped, hrecord]
  split at h
  next hs =>
    have : Nonempty SelectedRecord := ⟨[], default⟩
    rw [neededGroups_eq_groups hlimit] at h
    rw [if_pos hs]
    rcases neededGroups_windowed limit offset with hneeded | ⟨count, hordered, hcount, hneeded⟩
    · exact ⟨rs, by rw [hneeded, h], rfl⟩
    · obtain ⟨record, hok, rfl⟩ := exists_map_of_mapM_eq_ok h
      have hpairwise := pairwise_groupRecords hordered (s.matching t) fun group hgroup =>
        groupRecord_row (hok group hgroup)
      rw [hneeded, mapM_eq_ok_map fun group hgroup => hok group (List.mem_of_mem_take hgroup)]
      refine ⟨_, rfl, ?_⟩
      rw [sorted_eq_self hpairwise, List.map_take,
        sorted_eq_self (hpairwise.sublist (List.take_sublist _ _))]
      exact window_take (s := s.windowed limit offset) hcount _
  next hs => exact ⟨rs, by rw [if_neg hs]; exact h, rfl⟩

/-- A statement that selects anything selects with a window what this shows of it. -/
theorem select_windowed {rows : List (List Cell)} (hlimit : s.limit = none) (hoffset : s.offset = none)
    (h : s.select t = .ok rows) (limit offset : Option Cell)
    (hfault : (s.windowed limit offset).fault? t = none) :
    (s.windowed limit offset).select t = .ok ((s.windowed limit offset).window rows) := by
  obtain ⟨-, hlong, rs, hrecords, hrows⟩ := select_eq_ok_iff.mp h
  rw [window_eq_self (s := s.suited t) hlimit hoffset ((s.suited t).sorted t rs)] at hrows
  obtain ⟨made, hmade, hwindow⟩ := records_windowed (s := s.suited t) hlimit hrecords limit offset
  refine select_eq_ok_iff.mpr ⟨hfault, hlong, made, hmade, ?_⟩
  show (((s.suited t).windowed limit offset).window ((s.suited t).sorted t made)).map _ = _
  rw [hwindow, ← hrows, window_map]
  rfl

end Statement

/-- The records of what a window shows are what the window shows of the records. -/
theorem decodeRows_window {columns : List OutputColumn} {rows : List (List Cell)} {records : List Row}
    (h : decodeRows columns rows = .ok records) (s : Statement Cell) :
    decodeRows columns (s.window rows) = .ok (s.window records) := by
  rw [decodeRows_eq_mapM] at h
  obtain ⟨record, hrecord, rfl⟩ := exists_map_of_mapM_eq_ok h
  rw [decodeRows_eq_mapM, Statement.window_map]
  exact mapM_eq_ok_map fun row hrow => hrecord row (Statement.mem_of_mem_window hrow)

/-- A store that brings anything for a statement brings with a window what this shows of it. -/
theorem Store.fetch_windowed {store : Store} {now : Int} {timeoutMs : UInt64} {s : Statement Param}
    {columns : List OutputColumn} {records : List Row} (hlimit : s.limit = none)
    (hoffset : s.offset = none) (h : store.fetch now timeoutMs s columns = .ok records)
    (limit offset : Option Param) (hsize : (s.windowed limit offset).isTooLarge = false) :
    store.fetch now timeoutMs (s.windowed limit offset) columns =
      .ok (((s.windowed limit offset).map Cell.ofParam).window records) := by
  have hcells : (s.windowed limit offset).map Cell.ofParam =
      (s.map Cell.ofParam).windowed (limit.map Cell.ofParam) (offset.map Cell.ofParam) := rfl
  have hsizeCells : ((s.map Cell.ofParam).windowed (limit.map Cell.ofParam)
      (offset.map Cell.ofParam)).isTooLarge = false := by
    rw [← hcells, Statement.isTooLarge_map]
    exact hsize
  have hnoLimit : (s.map Cell.ofParam).limit = none := congrArg (Option.map Cell.ofParam) hlimit
  have hnoOffset : (s.map Cell.ofParam).offset = none := congrArg (Option.map Cell.ofParam) hoffset
  obtain ⟨t, rows, hstore, htime, hselect, hdecoded⟩ := fetch_eq_ok h
  have hselectWindow := Statement.select_windowed hnoLimit hnoOffset hselect _ _
    (Statement.fault?_windowed (Statement.select_ok hselect).1 hsizeCells)
  exact (fetch_eq_decodeRows (s := s.windowed limit offset) hstore htime hselectWindow).trans
    (decodeRows_window hdecoded _)

namespace CheckedPlan

/-- The statement of the page after so many rows. -/
def countedPage (p : CheckedPlan) (generation : UInt64) (pageSize : UInt32) (rows : UInt64) :
    Statement Param :=
  { p.firstPage generation pageSize with offset := some (CompiledQuery.windowOffset rows) }

/-- A store that brings anything for the statement of a plan brings its windows. -/
theorem bringsWindows_of_fetch {p : CheckedPlan} {generation : UInt64} {store : Store} {now : Int}
    {timeoutMs : UInt64} {records : List Row} {pageSize : UInt32} {rows : UInt64}
    (h : store.fetch now timeoutMs (p.compile generation).base (p.compile generation).columns =
      .ok records)
    (hsize : (p.countedPage generation pageSize rows).isTooLarge = false) :
    (p.compile generation).BringsWindows (store.fetch now timeoutMs) records where
  whole := h
  first count hcount := by
    have hlimit : ((((p.compile generation).base.windowed (some (.integer count)) none).map
        Cell.ofParam).limit).bind Statement.rowCount? = some count.toInt.toNat :=
      Statement.rowCount?_integer hcount
    have hfetch := Store.fetch_windowed rfl rfl h (some (.integer count)) none
      (Statement.isTooLarge_windowed hsize _ _)
    rw [Statement.window_eq_take hlimit rfl] at hfetch
    exact hfetch
  later count skipped hcount hskipped := by
    have hlimit : ((((p.compile generation).base.windowed (some (.integer count))
        (some (.integer skipped))).map Cell.ofParam).limit).bind Statement.rowCount? =
          some count.toInt.toNat := Statement.rowCount?_integer hcount
    have hfetch := Store.fetch_windowed rfl rfl h (some (.integer count)) (some (.integer skipped))
      (Statement.isTooLarge_windowed hsize _ _)
    rw [Statement.window_eq_take_drop hlimit (Statement.rowCount?_integer hskipped)] at hfetch
    exact hfetch

end CheckedPlan

end CatalogQuery
