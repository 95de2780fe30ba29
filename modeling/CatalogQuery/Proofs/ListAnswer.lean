import CatalogQuery.Proofs.CompiledText
/-!
# Answers to plans for rows

Running the compiled statement of a plan for rows brings a record for every row that the plan
selects and for no other, in the order that the plan asks for. The statement that runs is the one
that its text and its list of parameters are read as.
-/
namespace CatalogQuery

open Std

def Entity.record (e : Entity) (value : String → Cell) : Row :=
  recordOf (e.fields.map fun f => (f.name, f.kind.json (value f.column)))

/-- No name of the entity is a reserved word. -/
structure Entity.IsUnreserved (e : Entity) : Prop where
  table : Keyword.isReservedTable e.table = false
  column : ∀ f ∈ e.fields, Keyword.isReservedColumn f.column = false

/-- No text on either side of a pattern has a zero character in it. -/
structure CheckedPlan.HasNoZero (p : CheckedPlan) (t : Table) : Prop where
  stored : ∀ f ∈ p.entity.fields, ∀ row ∈ t.numberedRows, (t.value row f.column).hasNoZero = true
  patterns : ∀ f ∈ p.filters, f.predicate.hasNoZero = true

namespace CheckedPlan.IsListing

variable {p : CheckedPlan} (hp : p.IsListing) (generation : UInt64)

include hp

theorem reservedWord?_eq_none_iff :
    (p.compile generation).base.reservedWord? = none ↔ p.entity.IsUnreserved := by
  rw [Statement.reservedWord?_eq_none_iff]
  constructor
  · rintro ⟨htable, hcolumns, -⟩
    refine ⟨htable, ?_⟩
    intro f hf
    apply hcolumns
    apply Statement.output_mem_columnNames (o := .column f.column) _ rfl
    rw [hp.base_output]
    exact List.mem_map_of_mem hf
  · intro hnames
    refine ⟨hnames.table, ?_, ?_⟩
    · intro name hname
      obtain ⟨f, hf, rfl⟩ := hp.isAccepted.columnNames_mem generation hname
      exact hnames.column f hf
    · intro name hname
      cases hname

theorem stores_of_mem_columnNames {t : Table} (ht : ∀ f ∈ p.entity.fields, t.stores f.column = true) :
    ∀ name ∈ (p.compile generation).base.columnNames, t.stores name = true :=
  hp.isAccepted.stores_of_mem_columnNames generation ht

end CheckedPlan.IsListing

/-- The text and the parameters of an accepted plan for rows are read as its statement, and running
this brings the records of just the rows that the plan selects, in the order that the plan asks for. -/
theorem CheckedPlan.fetch_base {source : String} {d : CatalogDefinition} {g : UInt64} {c : Catalog}
    {policy : LimitPolicy} {plan : Plan} {p : CheckedPlan} {store : Store} {t : Table}
    {generation timeoutMs : UInt64} (hc : Catalog.ofDefinition source d g = .ok c)
    (hplan : plan.check c policy = .ok p) (hoperation : p.operation = .list)
    (hnames : p.entity.IsUnreserved) (hlimits : (p.compile generation).base.IsWithinLimits timeoutMs)
    (hstore : store.Serves p.entity.table t) (ht : p.entity.IsStoredIn t) (hzero : p.HasNoZero t)
    (now : Int) :
    ∃ rows : List StoredRow,
      rows.Perm (t.numberedRows.filter fun row => p.selects (t.value row)) ∧
      rows.Pairwise (fun a b => p.rowOrder (t.value a) (t.value b) ≠ .gt) ∧
      Statement.ofText? (p.compile generation).base.text (p.compile generation).base.values =
        some (p.compile generation).base ∧
      store.fetch now timeoutMs (p.compile generation).base (p.compile generation).columns =
        .ok (rows.map fun row => p.entity.record (t.value row)) := by
  have hp := Plan.isListing_of_check hc hplan hoperation
  have hmatching := hp.matching_base generation ht hzero.stored hzero.patterns
  have hrows : ((p.compile generation).base.map Cell.ofParam).rows t =
      t.sortedBy (p.compile generation).base.orderBy
        (t.numberedRows.filter fun row => p.selects (t.value row)) := by
    rw [Statement.rows, hmatching]
    rfl
  refine ⟨_, t.sortedBy_perm (p.compile generation).base.orderBy _, ?_,
    (hp.base_isPlain generation).ofText?_text, ?_⟩
  · refine (t.pairwise_sortedBy _ _).imp ?_
    intro a b hab
    rw [← hp.keyOrder_eq generation]
    exact hab
  · rw [Store.fetch_listing _ _ hstore (hp.base_isListing generation)
      ((hp.reservedWord?_eq_none_iff generation).mpr hnames) hlimits
      (hp.stores_of_mem_columnNames generation ht.stores), hrows]
    apply decodeRows_eq_ok
    intro row hrow
    have hmem := (List.mem_filter.mp ((t.sortedBy_perm _ _).mem_iff.mp hrow)).1
    exact hp.decodeRow_eq generation fun f hf => Cell.toJson?_of_fits (ht.fits f hf row hmem)

namespace Books

def definition : CatalogDefinition where
  entities :=
    [{ name := "Book", table := "book",
       fields :=
        [{ name := "id", column := "id", kind := .number, unique := true },
         { name := "title", column := "title", kind := .string,
           operators := some [.lt, .like] }] }]

def entity : Entity where
  id := 0
  name := "Book"
  table := "book"
  fields :=
    [{ id := 0, name := "id", column := "id", kind := .number,
       operators := ValueKind.number.defaultOperators, unique := true, nullable := false },
     { id := 1, name := "title", column := "title", kind := .string,
       operators := [.lt, .like], unique := false, nullable := true }]
  requiresTimeRange := false
  timeFieldId := none

def catalog : Catalog where
  generation := 1
  entities := [entity]

theorem ofDefinition_definition : Catalog.ofDefinition "books" definition 1 = .ok catalog := by
  decide

def checked (title : Predicate) : CheckedPlan where
  entity := entity
  operation := .list
  filters := [⟨entity.fields[1], title⟩]
  orderBy := []
  groupBy := []
  aggregations := []
  timeRange := none
  limit := 100
  requestId := none

/-- The books with the replacement character in their titles. -/
def plan : Plan := (Plan.list "Book").addFilter "title" "like" (.str "\uFFFD")

theorem check_plan : plan.check catalog {} = .ok (checked (.like "\uFFFD")) := by decide

def table : Table where
  name := "book"
  columns := ["id", "title"]
  rows := [[.integer 1, .text "\uFFFF"], [.integer 2, .text "War and Peace"], [.integer 3, .null]]

def store : Store := { tables := [table] }

theorem isUnreserved : entity.IsUnreserved where
  table := by decide
  column := by decide

theorem serves : store.Serves "book" table where
  free := rfl
  readable := rfl
  found := by decide
  ends := rfl

theorem isStoredIn : entity.IsStoredIn table where
  stores := by decide
  suits := by decide
  fits := by decide

theorem hasNoZero : (checked (.like "\uFFFD")).HasNoZero table where
  stored := by decide
  patterns := by decide

theorem isWithinLimits : ((checked (.like "\uFFFD")).compile 1).base.IsWithinLimits 5000 where
  time := by decide
  size := by decide
  pattern := by decide

/-- The answer to the plan is that of the general theorem. -/
theorem fetch_plan :
    ∃ rows : List StoredRow,
      rows.Perm (table.numberedRows.filter fun row =>
        (checked (.like "\uFFFD")).selects (table.value row)) ∧
      rows.Pairwise (fun a b =>
        (checked (.like "\uFFFD")).rowOrder (table.value a) (table.value b) ≠ .gt) ∧
      Statement.ofText? ((checked (.like "\uFFFD")).compile 1).base.text
          ((checked (.like "\uFFFD")).compile 1).base.values =
        some ((checked (.like "\uFFFD")).compile 1).base ∧
      store.fetch 0 5000 ((checked (.like "\uFFFD")).compile 1).base
          ((checked (.like "\uFFFD")).compile 1).columns =
        .ok (rows.map fun row => entity.record (table.value row)) :=
  CheckedPlan.fetch_base ofDefinition_definition check_plan rfl isUnreserved isWithinLimits serves
    isStoredIn hasNoZero 0

/-- A book with a sign for its title, in a column that takes texts of numbers as numbers. -/
def signTable : Table where
  name := "book"
  columns := ["id", "title"]
  rows := [[.integer 1, .text "+"]]
  affinities := [.plain, .number]

/-- No title contains the replacement character, but a plan for titles that do brings a book. And a
title comes before a digit in the order of texts, but a plan for titles that do brings nothing where
the column takes the digit as a number. -/
theorem fetch_other_books :
    (plan.check catalog {} = .ok (checked (.like "\uFFFD")) ∧
      (table.numberedRows.all fun row => !Text.containsRun ("\uFFFD".toList.map Char.toLower)
        ((table.value row "title").chars.map Char.toLower)) = true ∧
      (store.fetch 0 5000 ((checked (.like "\uFFFD")).compile 1).base
        ((checked (.like "\uFFFD")).compile 1).columns).map List.length = .ok 1) ∧
    (((Plan.list "Book").addFilter "title" "lt" (.str "5")).check catalog {} =
        .ok (checked (.compare .lt (.text "5"))) ∧
      (signTable.numberedRows.all fun row =>
        (signTable.value row "title").order (.text "5") == .lt) = true ∧
      ({ tables := [signTable] : Store }.fetch 0 5000
        ((checked (.compare .lt (.text "5"))).compile 1).base
        ((checked (.compare .lt (.text "5"))).compile 1).columns).map List.length = .ok 0) := by
  decide

end Books

end CatalogQuery
