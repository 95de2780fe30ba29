import CatalogQuery.Engine.Page
import CatalogQuery.Proofs.KeysetPage
import CatalogQuery.Proofs.ListAnswer
/-!
# Answers to pages

What executing a page of a keyset query brings, from the start or after a row: the records of the
next rows, whether there are more, and the cursor of the last row. A page fails if its statement
uses a reserved word, and otherwise it fails only for want of a connection, of time or of a row that
can be shown.
-/
namespace CatalogQuery

namespace CompiledQuery

-- The statement of a page brings one record more than the page holds, if there are so many left.
variable {q : CompiledQuery} {pageSize page : UInt32} {cursor : Cursor} {left : List Row}

theorem pageOutcome_take_records :
    (q.pageOutcome pageSize cursor page (left.take (pageSize.toNat + 1))).records =
      left.take pageSize.toNat := by
  rw [pageOutcome_records, List.take_take, Nat.min_eq_left (Nat.le_succ _)]

theorem pageOutcome_take_hasMore :
    (q.pageOutcome pageSize cursor page (left.take (pageSize.toNat + 1))).hasMore =
      decide (pageSize.toNat < left.length) := by
  show decide (pageSize.toNat < (left.take (pageSize.toNat + 1)).length) = _
  rw [List.length_take]
  apply decide_eq_decide.mpr
  omega

/-- Where there are more records, the next page begins after the last one that is delivered. -/
theorem pageOutcome_take_next {last : Row} (hlast : (left.take pageSize.toNat).getLast? = some last)
    (hmore : pageSize.toNat < left.length) :
    (q.pageOutcome pageSize cursor page (left.take (pageSize.toNat + 1))).next =
      some (Cursor.after q last pageSize page) := by
  have hhasMore : pageSize.toNat < (left.take (pageSize.toNat + 1)).length := by
    rw [List.length_take]
    omega
  have hnext : (q.pageOutcome pageSize cursor page (left.take (pageSize.toNat + 1))).next =
      (q.pageOutcome pageSize cursor page (left.take (pageSize.toNat + 1))).records.getLast?.map
        (Cursor.after q · pageSize page) := if_pos hhasMore
  rw [hnext, pageOutcome_take_records, hlast]
  rfl

end CompiledQuery

namespace CheckedPlan

/-- Every value of the row can be shown as the kind of its field. -/
def Shows (p : CheckedPlan) (t : Table) (row : StoredRow) : Prop :=
  ∀ f ∈ p.entity.fields, ((t.value row f.column).toJson? f.kind).isSome = true

def recordOfValues (p : CheckedPlan) (value : String → Cell) : Row :=
  recordOf (p.entity.fields.map fun f => (f.name, ((value f.column).toJson? f.kind).getD .null))

def record (p : CheckedPlan) (t : Table) (row : StoredRow) : Row := p.recordOfValues (t.value row)

/-- The rows from a place on: all of them, or those after given values. -/
def rowsFrom (p : CheckedPlan) (t : Table) : Option (String → Cell) → List StoredRow
  | none => p.rows t
  | some value => p.rowsAfter t value

def cursorAt (p : CheckedPlan) : Option (String → Cell) → Cursor
  | none => .start
  | some value => .keyset (p.cursorValues value)

def pageAt (p : CheckedPlan) (generation : UInt64) (pageSize : UInt32) :
    Option (String → Cell) → Statement Param
  | none => p.firstPage generation pageSize
  | some value => p.afterPage generation pageSize value

/-- The outcome of a page that begins with these rows. -/
def outcome (p : CheckedPlan) (generation : UInt64) (t : Table) (pageSize : UInt32) (cursor : Cursor)
    (page : UInt32) (rows : List StoredRow) : PageOutcome :=
  (p.compile generation).pageOutcome pageSize cursor page
    ((rows.take (pageSize.toNat + 1)).map (p.record t))

namespace IsListing

variable {p : CheckedPlan} (hp : p.IsListing) (generation : UInt64) {t : Table}

include hp

theorem decodeRow_record {row : StoredRow} (h : p.Shows t row) :
    decodeRow (p.compile generation).columns ((p.compile generation).base.rowCells t row) =
      .ok (p.record t row) := by
  apply hp.decodeRow_eq generation
  intro f hf
  obtain ⟨v, hv⟩ := Option.isSome_iff_exists.mp (h f hf)
  rw [hv]
  rfl

theorem decodeRows_eq {rows : List StoredRow} (h : ∀ row ∈ rows, p.Shows t row) :
    decodeRows (p.compile generation).columns
        (rows.map ((p.compile generation).base.rowCells t)) = .ok (rows.map (p.record t)) :=
  decodeRows_eq_ok fun row hrow => hp.decodeRow_record generation (h row hrow)

theorem decodeRows_ok {rows : List StoredRow} {records : List Row}
    (h : decodeRows (p.compile generation).columns
      (rows.map ((p.compile generation).base.rowCells t)) = .ok records) :
    (∀ row ∈ rows, p.Shows t row) ∧ records = rows.map (p.record t) := by
  have hshows : ∀ row ∈ rows, p.Shows t row := by
    intro row hrow
    obtain ⟨record, hrecord⟩ := exists_of_decodeRows_eq_ok h row hrow
    exact hp.shown_of_decodeRow_eq_ok generation hrecord
  rw [hp.decodeRows_eq generation hshows] at h
  exact ⟨hshows, (Except.ok.inj h).symm⟩

/-- The cursor after the record of a row locates the row. -/
theorem after_record {row : StoredRow} (hmode : p.cursorMode = .keyset)
    (hrow : p.IsKey t (t.value row)) (pageSize page : UInt32) :
    Cursor.after (p.compile generation) (p.record t row) pageSize page =
      p.cursorAt (some (t.value row)) := by
  have hvalues : Cursor.keyValues? (p.compile generation) (p.record t row) =
      some (p.cursorValues (t.value row)) := by
    apply hp.keyValues?_recordOf generation hrow.fits
    intro k hk
    rw [Cell.toJson?_of_fits (hrow.fits k hk)]
    rfl
  have hcursor : (p.compile generation).cursorMode = .keyset := hmode
  rw [Cursor.after, hcursor, hvalues]
  rfl

theorem page?_cursorAt (hmode : p.cursorMode = .keyset) (pageSize : UInt32)
    (place : Option (String → Cell)) :
    (p.compile generation).page? pageSize (p.cursorAt place) =
      some (p.pageAt generation pageSize place) := by
  cases place with
  | none => rfl
  | some value =>
    have hlength : (p.cursorValues value).length = (p.compile generation).orderBy.length := by
      have hkeys : (p.compile generation).orderBy = _ := hp.orderBy_eq (p.compile generation).columns
      rw [hkeys, cursorValues, List.length_map, List.length_map]
    have haccepts : (p.compile generation).accepts (p.cursorAt (some value)) = true :=
      CompiledQuery.accepts_keyset_iff.mpr ⟨hmode, hlength⟩
    rw [CompiledQuery.page?, if_pos haccepts]
    rfl

theorem pageAt_isListing (pageSize : UInt32) (place : Option (String → Cell)) :
    (p.pageAt generation pageSize place).IsListing := by
  have hbase := hp.base_isListing generation
  cases place with
  | none => exact ⟨hbase.output_label, hbase.groupBy_nil⟩
  | some value => exact ⟨hbase.output_label, hbase.groupBy_nil⟩

theorem pageAt_stores (ht : p.HasKeys t) (pageSize : UInt32) (place : Option (String → Cell)) :
    ∀ name ∈ (p.pageAt generation pageSize place).columnNames, t.stores name = true := by
  intro name hname
  have hbase : name ∈ (p.compile generation).base.columnNames := by
    cases place with
    | none => exact hname
    | some value => exact (hp.mem_afterPage_columnNames generation).mp hname
  exact hp.stores_of_mem_columnNames generation ht.stores name hbase

theorem pageAt_rows (hmode : p.cursorMode = .keyset) (ht : p.HasKeys t) {pageSize : UInt32}
    {place : Option (String → Cell)} (hplace : ∀ value ∈ place, p.IsKey t value) :
    ((p.pageAt generation pageSize place).map Cell.ofParam).rows t =
      (p.rowsFrom t place).take (pageSize.toNat + 1) := by
  cases place with
  | none => exact firstPage_rows generation pageSize
  | some value => exact hp.afterPage_rows generation hmode ht (hplace value rfl)

theorem pageAt_reservedWord?_iff (hmode : p.cursorMode = .keyset) {pageSize : UInt32}
    {place : Option (String → Cell)} (hplace : ∀ value ∈ place, p.IsKey t value) :
    (p.pageAt generation pageSize place).reservedWord? = none ↔
      (p.compile generation).base.reservedWord? = none ∧
        ∀ value ∈ place, p.enclosesWith value = false := by
  cases place with
  | none =>
    show (p.compile generation).base.reservedWord? = none ↔ _
    simp
  | some value =>
    show (p.afterPage generation pageSize value).reservedWord? = none ↔ _
    rw [hp.afterPage_reservedWord?_iff generation hmode (hplace value rfl)]
    simp

/-- What the statement of the plan brings. -/
theorem fetch_base_eq {store : Store} {timeoutMs : UInt64} {now : Int} (ht : p.HasKeys t)
    (hstore : store.Serves p.entity.table t)
    (hreserved : (p.compile generation).base.reservedWord? = none)
    (hlimits : (p.compile generation).base.IsWithinLimits timeoutMs)
    (hshows : ∀ row ∈ p.rows t, p.Shows t row) :
    store.fetch now timeoutMs (p.compile generation).base (p.compile generation).columns =
      .ok ((p.rows t).map (p.record t)) := by
  rw [Store.fetch_listing _ _ hstore (hp.base_isListing generation) hreserved hlimits
    (hp.stores_of_mem_columnNames generation ht.stores)]
  exact hp.decodeRows_eq generation hshows

/-- Where the statement of the plan has brought anything, every row can be shown. -/
theorem fetch_base_ok {store : Store} {timeoutMs : UInt64} {now : Int} {records : List Row}
    (ht : p.HasKeys t) (hfound : Schema.find? store.tables p.entity.table = some t)
    (h : store.fetch now timeoutMs (p.compile generation).base (p.compile generation).columns =
      .ok records) :
    ∀ row ∈ p.rows t, p.Shows t row := by
  obtain ⟨-, hdecoded⟩ := Store.fetch_listing_ok (s := (p.compile generation).base) hfound
    (hp.base_isListing generation) (hp.stores_of_mem_columnNames generation ht.stores) h
  exact (hp.decodeRows_ok generation hdecoded).1

/-- What the page of a place brings. -/
theorem executePage_eq {store : Store} {pageSize : UInt32} {timeoutMs : UInt64} (now : Int)
    (place : Option (String → Cell)) (hmode : p.cursorMode = .keyset) (ht : p.HasKeys t)
    (hplace : ∀ value ∈ place, p.IsKey t value) (hstore : store.Serves p.entity.table t)
    (hreserved : (p.pageAt generation pageSize place).reservedWord? = none)
    (hlimits : (p.pageAt generation pageSize place).IsWithinLimits timeoutMs)
    (hshows : ∀ row ∈ p.rowsFrom t place, p.Shows t row) (page : UInt32) :
    (p.compile generation).executePage (store.fetch now timeoutMs) pageSize (p.cursorAt place) page =
      .ok (p.outcome generation t pageSize (p.cursorAt place) page (p.rowsFrom t place)) := by
  have htable : (p.pageAt generation pageSize place).table = p.entity.table := by
    cases place <;> rfl
  have hcells : (p.pageAt generation pageSize place).rowCells t =
      (p.compile generation).base.rowCells t := by
    cases place <;> rfl
  rw [← htable] at hstore
  have hfetch := Store.fetch_listing now (p.compile generation).columns hstore
    (hp.pageAt_isListing generation pageSize place) hreserved hlimits
    (hp.pageAt_stores generation ht pageSize place)
  rw [hp.pageAt_rows generation hmode ht hplace, hcells,
    hp.decodeRows_eq generation fun row hrow => hshows row (List.mem_of_mem_take hrow)] at hfetch
  rw [CompiledQuery.executePage, hp.page?_cursorAt generation hmode]
  simp only [hfetch]
  rfl

/-- What the page of a place has brought, where it brought anything. -/
theorem executePage_ok {store : Store} {pageSize : UInt32} {timeoutMs : UInt64} {now : Int}
    {place : Option (String → Cell)} {page : UInt32} {outcome : PageOutcome}
    (hmode : p.cursorMode = .keyset) (ht : p.HasKeys t) (hplace : ∀ value ∈ place, p.IsKey t value)
    (hfound : Schema.find? store.tables p.entity.table = some t)
    (h : (p.compile generation).executePage (store.fetch now timeoutMs) pageSize (p.cursorAt place)
      page = .ok outcome) :
    (p.pageAt generation pageSize place).reservedWord? = none ∧
      outcome = p.outcome generation t pageSize (p.cursorAt place) page (p.rowsFrom t place) := by
  have htable : (p.pageAt generation pageSize place).table = p.entity.table := by
    cases place <;> rfl
  have hcells : (p.pageAt generation pageSize place).rowCells t =
      (p.compile generation).base.rowCells t := by
    cases place <;> rfl
  rw [← htable] at hfound
  rw [CompiledQuery.executePage, hp.page?_cursorAt generation hmode] at h
  cases hfetch : store.fetch now timeoutMs (p.pageAt generation pageSize place)
      (p.compile generation).columns with
  | error e =>
    simp only [hfetch] at h
    cases h
  | ok records =>
    simp only [hfetch] at h
    obtain ⟨hreserved, hdecoded⟩ := Store.fetch_listing_ok hfound
      (hp.pageAt_isListing generation pageSize place)
      (hp.pageAt_stores generation ht pageSize place) hfetch
    rw [hp.pageAt_rows generation hmode ht hplace, hcells] at hdecoded
    obtain ⟨-, rfl⟩ := hp.decodeRows_ok generation hdecoded
    exact ⟨hreserved, (Except.ok.inj h).symm⟩

end IsListing

section Outcome

variable (p : CheckedPlan) (generation : UInt64) (t : Table) (pageSize : UInt32) (cursor : Cursor)
  (page : UInt32) (rows : List StoredRow)

theorem outcome_eq :
    p.outcome generation t pageSize cursor page rows =
      (p.compile generation).pageOutcome pageSize cursor page
        ((rows.map (p.record t)).take (pageSize.toNat + 1)) := by
  rw [outcome, List.map_take]

theorem outcome_records :
    (p.outcome generation t pageSize cursor page rows).records =
      (rows.take pageSize.toNat).map (p.record t) := by
  rw [outcome_eq, CompiledQuery.pageOutcome_take_records, List.map_take]

theorem outcome_hasMore :
    (p.outcome generation t pageSize cursor page rows).hasMore =
      decide (pageSize.toNat < rows.length) := by
  rw [outcome_eq, CompiledQuery.pageOutcome_take_hasMore, List.length_map]

variable {p t pageSize rows}

/-- Where there are more rows, the next page begins after the last one that is delivered. -/
theorem outcome_next {last : StoredRow} (hp : p.IsListing) (hmode : p.cursorMode = .keyset)
    (hlast : (rows.take pageSize.toNat).getLast? = some last) (hkey : p.IsKey t (t.value last))
    (hmore : pageSize.toNat < rows.length) :
    (p.outcome generation t pageSize cursor page rows).next =
      some (p.cursorAt (some (t.value last))) := by
  have hrecord : ((rows.map (p.record t)).take pageSize.toNat).getLast? = some (p.record t last) := by
    rw [← List.map_take, List.getLast?_map, hlast]
    rfl
  rw [outcome_eq, CompiledQuery.pageOutcome_take_next hrecord (by rw [List.length_map]; exact hmore),
    hp.after_record generation hmode hkey]

end Outcome

end CheckedPlan

end CatalogQuery
