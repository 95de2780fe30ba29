import CatalogQuery.Proofs.PageAnswer
/-!
# Walks over a keyset

A walk executes the first page and then the page that each answer points to. Over a table that does
not change, the pages of a keyset query are the rows of the plan cut into pieces of the page size,
and the walk ends with the last row. It stops short only where a statement on the way uses a
reserved word for a name or brings a row that cannot be shown.
-/
namespace CatalogQuery

/-- The pages of a walk from a page and its cursor on, each executed against the backend of its
number. A walk that has ended leaves no cursor. -/
inductive CompiledQuery.Walk (q : CompiledQuery) (backend : Nat → Backend) (pageSize : UInt32) :
    Nat → Cursor → List PageOutcome → Option Cursor → Prop
  /-- No page is executed. -/
  | pause (page : Nat) (cursor : Cursor) : Walk q backend pageSize page cursor [] (some cursor)
  /-- The page says that there are no more. -/
  | last {page : Nat} {cursor : Cursor} {outcome : PageOutcome}
      (executed : q.executePage (backend page) pageSize cursor (.ofNat page) = .ok outcome)
      (ended : outcome.hasMore = false) : Walk q backend pageSize page cursor [outcome] none
  /-- The page says where the next one begins. -/
  | more {page : Nat} {cursor next : Cursor} {outcome : PageOutcome} {outcomes : List PageOutcome}
      {left : Option Cursor}
      (executed : q.executePage (backend page) pageSize cursor (.ofNat page) = .ok outcome)
      (goesOn : outcome.hasMore = true) (points : outcome.next = some next)
      (rest : Walk q backend pageSize (page + 1) next outcomes left) :
      Walk q backend pageSize page cursor (outcome :: outcomes) left

/-- The pages are the records cut into pieces of the page size: all pages but the last are full, and
only the last says that there are no more. -/
structure IsPartition (pageSize : Nat) (outcomes : List PageOutcome) (records : List Row) : Prop where
  records_eq : outcomes.flatMap (·.records) = records
  full : ∀ o ∈ outcomes.dropLast, o.records.length = pageSize ∧ o.hasMore = true
  ended : ∃ o, outcomes.getLast? = some o ∧ o.records.length ≤ pageSize ∧ o.hasMore = false

theorem IsPartition.singleton {pageSize : Nat} {outcome : PageOutcome}
    (hsize : outcome.records.length ≤ pageSize) (hended : outcome.hasMore = false) :
    IsPartition pageSize [outcome] outcome.records where
  records_eq := List.flatMap_singleton _ _
  full := by
    intro o ho
    cases ho
  ended := ⟨outcome, rfl, hsize, hended⟩

theorem IsPartition.cons {pageSize : Nat} {outcome : PageOutcome} {outcomes : List PageOutcome}
    {records : List Row} (h : IsPartition pageSize outcomes records)
    (hsize : outcome.records.length = pageSize) (hmore : outcome.hasMore = true) :
    IsPartition pageSize (outcome :: outcomes) (outcome.records ++ records) where
  records_eq := by rw [List.flatMap_cons, h.records_eq]
  full := by
    obtain ⟨last, hlast, -⟩ := h.ended
    intro o ho
    cases outcomes with
    | nil => cases hlast
    | cons next rest =>
      rw [List.dropLast_cons_cons] at ho
      rcases List.mem_cons.mp ho with rfl | ho
      · exact ⟨hsize, hmore⟩
      · exact h.full o ho
  ended := by
    obtain ⟨last, hlast, hended⟩ := h.ended
    refine ⟨last, ?_, hended⟩
    rw [List.getLast?_cons, hlast]
    rfl

namespace CheckedPlan

/-- Every statement of a walk over the table is within its limits. -/
structure FitsLimits (p : CheckedPlan) (generation : UInt64) (pageSize : UInt32) (timeoutMs : UInt64)
    (t : Table) : Prop where
  base : (p.compile generation).base.IsWithinLimits timeoutMs
  first : (p.pageAt generation pageSize none).IsWithinLimits timeoutMs
  next : ∀ row ∈ p.rows t, (p.pageAt generation pageSize (some (t.value row))).IsWithinLimits timeoutMs

/-- No row at the end of a full page makes the statement of the next page put `with` behind an
opening parenthesis. -/
def boundariesOpen (p : CheckedPlan) (t : Table) (pageSize : Nat) (rows : List StoredRow) : Prop :=
  ∀ i row, (i + 1) * pageSize < rows.length → rows[(i + 1) * pageSize - 1]? = some row →
    p.enclosesWith (t.value row) = false

theorem boundariesOpen_drop {p : CheckedPlan} {t : Table} {pageSize : Nat} {rows : List StoredRow}
    {last : StoredRow} (hsize : 1 ≤ pageSize) (hlast : rows[pageSize - 1]? = some last)
    (hmore : pageSize < rows.length) :
    p.boundariesOpen t pageSize rows ↔
      p.enclosesWith (t.value last) = false ∧ p.boundariesOpen t pageSize (rows.drop pageSize) := by
  constructor
  · intro h
    refine ⟨h 0 last (by omega) (by simpa using hlast), ?_⟩
    intro i row hi hrow
    rw [List.length_drop] at hi
    rw [List.getElem?_drop] at hrow
    have hindex : pageSize + ((i + 1) * pageSize - 1) = (i + 1 + 1) * pageSize - 1 := by
      rw [Nat.add_mul (i + 1)]
      have hpos : 1 ≤ (i + 1) * pageSize := Nat.mul_pos (Nat.succ_pos i) hsize
      omega
    rw [hindex] at hrow
    exact h (i + 1) row (by rw [Nat.add_mul (i + 1)]; omega) hrow
  · rintro ⟨hfirst, hrest⟩ i row hi hrow
    cases i with
    | zero =>
      rw [Nat.zero_add, Nat.one_mul, hlast] at hrow
      rw [← Option.some_inj.mp hrow]
      exact hfirst
    | succ i =>
      have hindex : pageSize + ((i + 1) * pageSize - 1) = (i + 1 + 1) * pageSize - 1 := by
        rw [Nat.add_mul (i + 1)]
        have hpos : 1 ≤ (i + 1) * pageSize := Nat.mul_pos (Nat.succ_pos i) hsize
        omega
      apply hrest i row
      · rw [List.length_drop]
        rw [Nat.add_mul (i + 1)] at hi
        omega
      · rw [List.getElem?_drop, hindex]
        exact hrow

/-- A list cut at its last element of a full page. -/
theorem eq_take_append_cons_drop {α : Type} {xs : List α} {last : α} {count : Nat} (hcount : 1 ≤ count)
    (hlast : xs[count - 1]? = some last) :
    xs = xs.take (count - 1) ++ last :: xs.drop count := by
  obtain ⟨hlt, hget⟩ := List.getElem?_eq_some_iff.mp hlast
  have hdrop : xs.drop (count - 1) = last :: xs.drop count := by
    rw [List.drop_eq_getElem_cons hlt, hget, Nat.sub_add_cancel hcount]
  rw [← hdrop, List.take_append_drop]

namespace IsListing

variable {p : CheckedPlan} (hp : p.IsListing) {t : Table}

include hp

/-- The rows after one of the rows of the plan are those that follow it. -/
theorem rowsAfter_eq (before : List StoredRow) {rest : List StoredRow} {row : StoredRow}
    (hmode : p.cursorMode = .keyset) (ht : p.HasKeys t) (h : p.rows t = before ++ row :: rest) :
    p.rowsAfter t (t.value row) = rest := by
  have hincreasing := hp.rows_increasing hmode ht
  rw [h, List.pairwise_append, List.pairwise_cons] at hincreasing
  obtain ⟨-, ⟨hrest, -⟩, hbefore⟩ := hincreasing
  have hnone : before.filter (fun x => p.rowOrder (t.value row) (t.value x) == .lt) = [] := by
    rw [List.filter_eq_nil_iff]
    intro x hx
    have hlt := hbefore x hx row List.mem_cons_self
    have hswap : p.rowOrder (t.value row) (t.value x) =
        (p.rowOrder (t.value x) (t.value row)).swap := Std.OrientedCmp.eq_swap
    rw [hswap, hlt]
    exact Bool.false_ne_true
  have hself : (p.rowOrder (t.value row) (t.value row) == .lt) = false := by
    have hrefl : p.rowOrder (t.value row) (t.value row) = .eq := Std.ReflCmp.compare_self
    rw [hrefl]
    rfl
  have hall : rest.filter (fun x => p.rowOrder (t.value row) (t.value x) == .lt) = rest := by
    rw [List.filter_eq_self]
    intro x hx
    exact beq_iff_eq.mpr (hrest x hx)
  rw [rowsAfter, h, List.filter_append, hnone, List.nil_append, List.filter_cons, if_neg (by simp [hself]),
    hall]

/-- The place after the last row of a full page has the rows that are left. -/
theorem rowsFrom_last {rows : List StoredRow} {last : StoredRow} {pageSize : Nat}
    (hmode : p.cursorMode = .keyset) (ht : p.HasKeys t) (hrows : rows <:+ p.rows t)
    (hsize : 1 ≤ pageSize) (hlast : rows[pageSize - 1]? = some last) :
    p.rowsFrom t (some (t.value last)) = rows.drop pageSize := by
  obtain ⟨before, hbefore⟩ := hrows
  have hsplit := eq_take_append_cons_drop hsize hlast
  apply hp.rowsAfter_eq (before ++ rows.take (pageSize - 1)) hmode ht
  rw [List.append_assoc, ← hsplit, hbefore]

end IsListing

/-- A place between the rows of the plan, given by the rows that follow it. -/
structure Stands (p : CheckedPlan) (t : Table) (place : Option (String → Cell))
    (rows : List StoredRow) : Prop where
  suffix : rows <:+ p.rows t
  rowsFrom : p.rowsFrom t place = rows
  after : ∀ value ∈ place, ∃ row ∈ p.rows t, value = t.value row

namespace Stands

variable {p : CheckedPlan} {t : Table} {place : Option (String → Cell)} {rows : List StoredRow}

theorem start (p : CheckedPlan) (t : Table) : p.Stands t none (p.rows t) where
  suffix := List.suffix_refl _
  rowsFrom := rfl
  after := by
    intro value hvalue
    cases hvalue

theorem isKey (h : p.Stands t place rows) (ht : p.HasKeys t) :
    ∀ value ∈ place, p.IsKey t value := by
  intro value hvalue
  obtain ⟨row, hrow, rfl⟩ := h.after value hvalue
  exact ht.isKey row hrow

theorem step {last : StoredRow} {pageSize : Nat} (h : p.Stands t place rows) (hp : p.IsListing)
    (hmode : p.cursorMode = .keyset) (ht : p.HasKeys t) (hsize : 1 ≤ pageSize)
    (hlast : rows[pageSize - 1]? = some last) :
    p.Stands t (some (t.value last)) (rows.drop pageSize) where
  suffix := (List.drop_suffix _ _).trans h.suffix
  rowsFrom := hp.rowsFrom_last hmode ht h.suffix hsize hlast
  after := by
    intro value hvalue
    rw [← Option.some_inj.mp hvalue]
    exact ⟨last, h.suffix.mem (List.mem_of_getElem? hlast), rfl⟩

end Stands

namespace IsListing

variable {p : CheckedPlan} (hp : p.IsListing) {t : Table}

include hp

/-- From a place on the walk goes through the rows that follow it, if no page boundary is in its
way. -/
theorem exists_walk {store : Store} {pageSize : UInt32} {timeoutMs : UInt64} {generation : UInt64}
    {rows : List StoredRow} (place : Option (String → Cell)) (hmode : p.cursorMode = .keyset)
    (hsize : 1 ≤ pageSize.toNat) (ht : p.HasKeys t) (hshows : ∀ row ∈ p.rows t, p.Shows t row)
    (hstore : store.Serves p.entity.table t)
    (hlimits : p.FitsLimits generation pageSize timeoutMs t)
    (hreserved : (p.compile generation).base.reservedWord? = none) (clock : Nat → Int) (page : Nat)
    (hplace : p.Stands t place rows) (hwith : ∀ value ∈ place, p.enclosesWith value = false)
    (hopen : p.boundariesOpen t pageSize.toNat rows) :
    ∃ outcomes, (p.compile generation).Walk (fun page => store.fetch (clock page) timeoutMs) pageSize
        page (p.cursorAt place) outcomes none ∧
      IsPartition pageSize.toNat outcomes (rows.map (p.record t)) := by
  induction hlength : rows.length using Nat.strong_induction_on generalizing rows place page with
  | _ count ih =>
    have hkey := hplace.isKey ht
    have hpage : (p.pageAt generation pageSize place).IsWithinLimits timeoutMs := by
      cases place with
      | none => exact hlimits.first
      | some value =>
        obtain ⟨row, hrow, rfl⟩ := hplace.after value rfl
        exact hlimits.next row hrow
    have hexecuted := hp.executePage_eq generation (clock page) place hmode ht hkey hstore
      ((hp.pageAt_reservedWord?_iff generation hmode hkey).mpr ⟨hreserved, hwith⟩) hpage
      (fun row hrow => hshows row (hplace.suffix.mem (hplace.rowsFrom ▸ hrow))) (.ofNat page)
    rw [hplace.rowsFrom] at hexecuted
    by_cases hmore : pageSize.toNat < rows.length
    · have hindex : pageSize.toNat - 1 < rows.length := by omega
      have hlast := List.getElem?_eq_getElem hindex
      generalize rows[pageSize.toNat - 1] = last at hlast
      have hnext := hplace.step hp hmode ht hsize hlast
      obtain ⟨hwithLast, hopenRest⟩ := (boundariesOpen_drop hsize hlast hmore).mp hopen
      obtain ⟨outcomes, hwalk, hpartition⟩ := ih (rows.drop pageSize.toNat).length
        (by rw [List.length_drop]; omega) _ (page + 1) hnext
        (fun value hvalue => Option.some_inj.mp hvalue ▸ hwithLast) hopenRest rfl
      refine ⟨_ :: outcomes, .more hexecuted ?_ ?_ hwalk, ?_⟩
      · rw [outcome_hasMore]
        exact decide_eq_true hmore
      · apply outcome_next _ _ _ hp hmode _ (ht.isKey last (hplace.suffix.mem (List.mem_of_getElem? hlast)))
          hmore
        rw [List.getLast?_take, if_neg (by omega), hlast]
        rfl
      · have hsplit : rows.map (p.record t) = (rows.take pageSize.toNat).map (p.record t) ++
            (rows.drop pageSize.toNat).map (p.record t) := by
          rw [← List.map_append, List.take_append_drop]
        rw [hsplit, ← p.outcome_records generation t pageSize (p.cursorAt place) (.ofNat page)]
        apply hpartition.cons
        · rw [outcome_records, List.length_map, List.length_take]
          omega
        · rw [outcome_hasMore]
          exact decide_eq_true hmore
    · have hrecords : rows.map (p.record t) = (rows.take pageSize.toNat).map (p.record t) := by
        rw [List.take_of_length_le (by omega)]
      refine ⟨[_], .last hexecuted ?_, ?_⟩
      · rw [outcome_hasMore]
        exact decide_eq_false hmore
      · rw [hrecords, ← p.outcome_records generation t pageSize (p.cursorAt place) (.ofNat page)]
        apply IsPartition.singleton
        · rw [outcome_records, List.length_map, List.length_take]
          omega
        · rw [outcome_hasMore]
          exact decide_eq_false hmore

/-- A walk that has ended met no reserved word and no page boundary in its way. -/
theorem boundariesOpen_of_walk {store : Store} {pageSize : UInt32} {timeoutMs : UInt64}
    {generation : UInt64} {clock : Nat → Int} {page : Nat} {cursor : Cursor}
    {outcomes : List PageOutcome} {left : Option Cursor} {rows : List StoredRow}
    (place : Option (String → Cell)) (hmode : p.cursorMode = .keyset) (hsize : 1 ≤ pageSize.toNat)
    (ht : p.HasKeys t) (hfound : Schema.find? store.tables p.entity.table = some t)
    (hwalk : (p.compile generation).Walk (fun page => store.fetch (clock page) timeoutMs) pageSize page
      cursor outcomes left)
    (hcursor : cursor = p.cursorAt place) (hended : left = none) (hplace : p.Stands t place rows) :
    (p.compile generation).base.reservedWord? = none ∧
      (∀ value ∈ place, p.enclosesWith value = false) ∧
      p.boundariesOpen t pageSize.toNat rows := by
  induction hwalk generalizing place rows with
  | pause page cursor => cases hended
  | last executed ended =>
    subst hcursor
    obtain ⟨hreserved, houtcome⟩ :=
      hp.executePage_ok generation hmode ht (hplace.isKey ht) hfound executed
    obtain ⟨hbase, hwith⟩ :=
      (hp.pageAt_reservedWord?_iff generation hmode (hplace.isKey ht)).mp hreserved
    rw [houtcome, outcome_hasMore, hplace.rowsFrom, decide_eq_false_iff_not] at ended
    refine ⟨hbase, hwith, ?_⟩
    intro i row hi hrow
    have hle : pageSize.toNat ≤ (i + 1) * pageSize.toNat := Nat.le_mul_of_pos_left _ (Nat.succ_pos i)
    omega
  | more executed goesOn points rest ih =>
    subst hcursor
    obtain ⟨hreserved, houtcome⟩ :=
      hp.executePage_ok generation hmode ht (hplace.isKey ht) hfound executed
    obtain ⟨hbase, hwith⟩ :=
      (hp.pageAt_reservedWord?_iff generation hmode (hplace.isKey ht)).mp hreserved
    rw [houtcome, outcome_hasMore, hplace.rowsFrom, decide_eq_true_eq] at goesOn
    have hindex : pageSize.toNat - 1 < rows.length := by omega
    have hlast := List.getElem?_eq_getElem hindex
    generalize rows[pageSize.toNat - 1] = last at hlast
    have hlastKey := ht.isKey last (hplace.suffix.mem (List.mem_of_getElem? hlast))
    have hgetLast : (rows.take pageSize.toNat).getLast? = some last := by
      rw [List.getLast?_take, if_neg (by omega), hlast]
      rfl
    rw [houtcome, hplace.rowsFrom, outcome_next _ _ _ hp hmode hgetLast hlastKey goesOn] at points
    obtain ⟨-, hwithLast, hopen⟩ := ih _ (Option.some_inj.mp points).symm hended
      (hplace.step hp hmode ht hsize hlast)
    refine ⟨hbase, hwith, ?_⟩
    rw [boundariesOpen_drop hsize hlast goesOn]
    exact ⟨hwithLast _ rfl, hopen⟩

end IsListing

end CheckedPlan

/-- Only a plan for rows is compiled to a keyset query. -/
theorem CheckedPlan.operation_of_cursorMode {p : CheckedPlan} {generation : UInt64}
    (hmode : (p.compile generation).cursorMode = .keyset) : p.operation = .list := by
  have hmode : p.cursorMode = .keyset := hmode
  rw [cursorMode] at hmode
  split at hmode
  next h => exact h.1
  next => cases hmode

/-- Over a table that does not change, the walk of a keyset query cuts the whole result into its
pages just if no name of the entity is a reserved word, every row of the plan can be shown, and no
row at the end of a page makes the statement of the next page put `with` behind an opening
parenthesis. -/
theorem CheckedPlan.walk_partitions_iff {source : String} {d : CatalogDefinition} {g : UInt64}
    {c : Catalog} {policy : LimitPolicy} {plan : Plan} {p : CheckedPlan} {store : Store} {t : Table}
    {pageSize : UInt32} {generation timeoutMs : UInt64}
    (hc : Catalog.ofDefinition source d g = .ok c) (hplan : plan.check c policy = .ok p)
    (hmode : (p.compile generation).cursorMode = .keyset) (hsize : 1 ≤ pageSize.toNat)
    (hstore : store.Serves p.entity.table t) (ht : p.HasKeys t)
    (hlimits : p.FitsLimits generation pageSize timeoutMs t) (now : Int) (clock : Nat → Int) :
    (∃ records outcomes,
      store.fetch now timeoutMs (p.compile generation).base (p.compile generation).columns =
        .ok records ∧
      (p.compile generation).Walk (fun page => store.fetch (clock page) timeoutMs) pageSize 1 .start
        outcomes none ∧
      IsPartition pageSize.toNat outcomes records) ↔
    p.entity.IsUnreserved ∧ (∀ row ∈ p.rows t, p.Shows t row) ∧
      p.boundariesOpen t pageSize.toNat (p.rows t) := by
  have hp := Plan.isListing_of_check hc hplan (operation_of_cursorMode hmode)
  rw [← hp.reservedWord?_eq_none_iff generation]
  constructor
  · rintro ⟨records, outcomes, hfetch, hwalk, -⟩
    obtain ⟨hreserved, -, hopen⟩ := hp.boundariesOpen_of_walk none hmode hsize ht hstore.found
      hwalk rfl rfl (Stands.start p t)
    exact ⟨hreserved, hp.fetch_base_ok generation ht hstore.found hfetch, hopen⟩
  · rintro ⟨hreserved, hshows, hopen⟩
    obtain ⟨outcomes, hwalk, hpartition⟩ := hp.exists_walk none hmode hsize ht hshows hstore
      hlimits hreserved clock 1 (Stands.start p t) (by simp) hopen
    exact ⟨_, outcomes, hp.fetch_base_eq generation ht hstore hreserved hlimits.base hshows, hwalk,
      hpartition⟩

namespace NumberedBooks

/-- A catalog of books, which have numbers in a column of the given name. -/
def definition (column : String) : CatalogDefinition where
  entities :=
    [{ name := "Book", table := "book",
       fields := [{ name := "id", column, kind := .number, unique := true }] }]

def field (column : String) : Field where
  id := 0
  name := "id"
  column := column
  kind := .number
  operators := ValueKind.number.defaultOperators
  unique := true
  nullable := false

def entity (column : String) : Entity where
  id := 0
  name := "Book"
  table := "book"
  fields := [field column]
  requiresTimeRange := false
  timeFieldId := none

def catalog (column : String) : Catalog where
  generation := 1
  entities := [entity column]

def plan : Plan := (Plan.list "Book").addOrder "id" "asc"

def checked (column : String) : CheckedPlan where
  entity := entity column
  operation := .list
  filters := []
  orderBy := [⟨.field (field column), .asc⟩]
  groupBy := []
  aggregations := []
  timeRange := none
  limit := 100
  requestId := none

def table (column : String) : Table where
  name := "book"
  columns := [column]
  rows := [[.integer 3], [.integer 1], [.integer 2]]

def store (column : String) : Store := { tables := [table column] }

/-- A name for the column that is no word of the language of statements, and one that is. -/
def names : List String := ["id", "with"]

variable {column : String} (h : column ∈ names)

include h

theorem ofDefinition_definition :
    Catalog.ofDefinition "books" (definition column) 1 = .ok (catalog column) := by
  revert column
  decide

theorem check_plan : plan.check (catalog column) {} = .ok (checked column) := by
  revert column
  decide

theorem serves : (store column).Serves "book" (table column) where
  free := rfl
  readable := rfl
  found := by
    revert column
    decide
  ends := rfl

theorem hasKeys : (checked column).HasKeys (table column) := by
  apply CheckedPlan.HasKeys.of_numberedRows
  · revert column
    decide
  · intro row hrow
    constructor
    all_goals
      revert row column
      decide
  · revert column
    decide

theorem fitsLimits : (checked column).FitsLimits 1 2 5000 (table column) where
  base := by
    constructor
    all_goals
      revert column
      decide
  first := by
    constructor
    all_goals
      revert column
      decide
  next row hrow := by
    have hmem := CheckedPlan.mem_numberedRows_of_mem_rows hrow
    clear hrow
    constructor
    all_goals
      revert row column
      decide

omit h

/-- The walk over the books, two to the page, cuts the whole result into its pages. -/
def Partitions (column : String) : Prop :=
  ∃ records outcomes,
    (store column).fetch 0 5000 ((checked column).compile 1).base ((checked column).compile 1).columns =
      .ok records ∧
    ((checked column).compile 1).Walk (fun _ => (store column).fetch 0 5000) 2 1 .start outcomes none ∧
    IsPartition 2 outcomes records

theorem isUnreserved : (entity "id").IsUnreserved where
  table := by decide
  column := by decide

theorem shows : ∀ row ∈ (checked "id").rows (table "id"), (checked "id").Shows (table "id") row := by
  intro row hrow
  have hmem := CheckedPlan.mem_numberedRows_of_mem_rows hrow
  clear hrow
  unfold CheckedPlan.Shows
  revert row
  decide

theorem boundariesOpen_id :
    (checked "id").boundariesOpen (table "id") 2 ((checked "id").rows (table "id")) := by
  intro i row hi hrow
  have hname : Keyword.isWith "id" = false := by decide
  simp [CheckedPlan.enclosesWith, CheckedPlan.keyFields, checked, field, hname]

theorem not_boundariesOpen_with :
    ¬(checked "with").boundariesOpen (table "with") 2 ((checked "with").rows (table "with")) := by
  intro hopen
  have hlength : ((checked "with").rows (table "with")).length = 3 := by
    rw [CheckedPlan.rows_eq, (Table.sortedBy_perm _ _ _).length_eq]
    decide
  have hname : Keyword.isWith "with" = true := by decide
  have hclosed := hopen 0 _ (by omega) (List.getElem?_eq_getElem (by omega))
  simp [CheckedPlan.enclosesWith, CheckedPlan.keyFields, checked, field, hname] at hclosed

/-- The walk goes through if the column is called `id` and not if it is called `with`. -/
theorem partitions_id_and_not_with : Partitions "id" ∧ ¬Partitions "with" := by
  constructor
  · exact (CheckedPlan.walk_partitions_iff (ofDefinition_definition (by decide)) (check_plan (by decide))
      rfl (by decide) (serves (by decide)) (hasKeys (by decide)) (fitsLimits (by decide)) 0
      fun _ => 0).mpr ⟨isUnreserved, shows, boundariesOpen_id⟩
  · intro hpartitions
    exact not_boundariesOpen_with ((CheckedPlan.walk_partitions_iff
      (ofDefinition_definition (by decide)) (check_plan (by decide)) rfl (by decide)
      (serves (by decide)) (hasKeys (by decide)) (fitsLimits (by decide)) 0
      fun _ => 0).mp hpartitions).2.2

end NumberedBooks

end CatalogQuery
