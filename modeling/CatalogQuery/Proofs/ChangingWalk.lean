import CatalogQuery.Proofs.KeysetWalk
/-!
# Walks over a changing table

While a walk goes on, the rows of the table may be changed between its pages in any way. What the
pages deliver is strictly increasing in the order of the plan all the same, so nothing comes twice,
and a row that stays where it is in this order is delivered before the walk ends.
-/
namespace CatalogQuery

open Std

namespace Table

def withRows (t : Table) (rows : List (List Cell)) : Table := { t with rows }

end Table

namespace CheckedPlan

/-- What can be a key depends on the columns of the table, and not on its rows. -/
theorem isKey_withRows_iff {p : CheckedPlan} {t : Table} {value : String → Cell}
    {rows : List (List Cell)} : p.IsKey (t.withRows rows) value ↔ p.IsKey t value := by
  constructor
  · intro h
    exact ⟨h.fits, h.isNull, h.stored⟩
  · intro h
    exact ⟨h.fits, h.isNull, h.stored⟩

/-- What the pages of a walk from a place on deliver, as the values of the rows: the records are
made from them, they are those of rows of the plan in the state of the page, and they come after the
place and after each other. -/
structure Delivers (p : CheckedPlan) (table : Nat → Table) (page : Nat)
    (place : Option (String → Cell)) (outcomes : List PageOutcome)
    (delivered : List (List (String → Cell))) : Prop where
  records : outcomes.map (·.records) = delivered.map fun values => values.map p.recordOfValues
  ofRows : ∀ i values, delivered[i]? = some values → ∀ value ∈ values,
    ∃ row ∈ p.rows (table (page + i)), value = (table (page + i)).value row
  after : ∀ start ∈ place, ∀ value ∈ delivered.flatten, p.rowOrder start value = .lt
  increasing : delivered.flatten.Pairwise fun a b => p.rowOrder a b = .lt

theorem Delivers.nil (p : CheckedPlan) (table : Nat → Table) (page : Nat)
    (place : Option (String → Cell)) : p.Delivers table page place [] [] where
  records := rfl
  ofRows := by
    intro i values h
    cases h
  after := by
    intro start hstart value hvalue
    cases hvalue
  increasing := List.Pairwise.nil

theorem mem_rowsFrom_iff {p : CheckedPlan} {t : Table} {place : Option (String → Cell)}
    {row : StoredRow} : row ∈ p.rowsFrom t place ↔
      row ∈ p.rows t ∧ ∀ start ∈ place, p.rowOrder start (t.value row) = .lt := by
  cases place with
  | none => simp [rowsFrom]
  | some value => simp [rowsFrom, rowsAfter]

/-- A page before what is delivered after it. -/
theorem Delivers.cons {p : CheckedPlan} {table : Nat → Table} {page : Nat}
    {place next : Option (String → Cell)} {outcome : PageOutcome} {outcomes : List PageOutcome}
    {delivered : List (List (String → Cell))} {rows : List StoredRow}
    (h : p.Delivers table (page + 1) next outcomes delivered)
    (hrecords : outcome.records = rows.map (p.record (table page)))
    (hrows : ∀ row ∈ rows, row ∈ p.rowsFrom (table page) place)
    (hincreasing : rows.Pairwise fun a b =>
      p.rowOrder ((table page).value a) ((table page).value b) = .lt)
    (hplace : ∀ start ∈ place, ∀ value ∈ delivered.flatten, p.rowOrder start value = .lt)
    (hrest : ∀ row ∈ rows, ∀ value ∈ delivered.flatten,
      p.rowOrder ((table page).value row) value = .lt) :
    p.Delivers table page place (outcome :: outcomes)
      (rows.map (table page).value :: delivered) where
  records := by
    rw [List.map_cons, List.map_cons, h.records, hrecords, List.map_map]
    rfl
  ofRows := by
    intro i values hvalues value hvalue
    cases i with
    | zero =>
      rw [List.getElem?_cons_zero, Option.some_inj] at hvalues
      subst hvalues
      obtain ⟨row, hrow, rfl⟩ := List.mem_map.mp hvalue
      exact ⟨row, (mem_rowsFrom_iff.mp (hrows row hrow)).1, rfl⟩
    | succ i =>
      obtain ⟨row, hrow, rfl⟩ := h.ofRows i values hvalues value hvalue
      rw [Nat.add_assoc, Nat.add_comm 1] at hrow
      refine ⟨row, hrow, ?_⟩
      rw [Nat.add_assoc, Nat.add_comm 1]
  after := by
    intro start hstart value hvalue
    rw [List.flatten_cons, List.mem_append] at hvalue
    rcases hvalue with hvalue | hvalue
    · obtain ⟨row, hrow, rfl⟩ := List.mem_map.mp hvalue
      exact (mem_rowsFrom_iff.mp (hrows row hrow)).2 start hstart
    · exact hplace start hstart value hvalue
  increasing := by
    rw [List.flatten_cons, List.pairwise_append, List.pairwise_map]
    refine ⟨hincreasing, h.increasing, ?_⟩
    intro a ha b hb
    obtain ⟨row, hrow, rfl⟩ := List.mem_map.mp ha
    exact hrest row hrow b hb

/-- A row of this place in the order is among the rows of the plan in the state of every page. -/
def StaysAt (p : CheckedPlan) (table : Nat → Table) (page count : Nat) (value : String → Cell) : Prop :=
  ∀ i < count, ∃ row ∈ p.rows (table (page + i)),
    p.rowOrder value ((table (page + i)).value row) = .eq

theorem StaysAt.step {p : CheckedPlan} {table : Nat → Table} {page count : Nat}
    {value : String → Cell} (h : p.StaysAt table page (count + 1) value) :
    p.StaysAt table (page + 1) count value := by
  intro i hi
  obtain ⟨row, hrow, heq⟩ := h (i + 1) (Nat.succ_lt_succ hi)
  rw [← Nat.add_assoc, Nat.add_right_comm] at hrow heq
  exact ⟨row, hrow, heq⟩

/-- In an increasing list what comes before the end of a page is not after its last element, and
what is left is. -/
theorem last_of_pairwise {α β : Type} {cmp : β → β → Ordering} [ReflCmp cmp] {value : α → β}
    {xs : List α} {last : α} {count : Nat}
    (h : xs.Pairwise fun a b => cmp (value a) (value b) = .lt) (hcount : 1 ≤ count)
    (hlast : xs[count - 1]? = some last) :
    (∀ x ∈ xs.take count, (cmp (value x) (value last)).isLE = true) ∧
      ∀ x ∈ xs.drop count, cmp (value last) (value x) = .lt := by
  have hsplit := eq_take_append_cons_drop hcount hlast
  have htake : xs.take count = xs.take (count - 1) ++ [last] := by
    obtain ⟨hlt, hget⟩ := List.getElem?_eq_some_iff.mp hlast
    rw [← hget, List.take_append_getElem, Nat.sub_add_cancel hcount]
  rw [hsplit, List.pairwise_append, List.pairwise_cons] at h
  obtain ⟨-, ⟨hrest, -⟩, hbefore⟩ := h
  refine ⟨?_, hrest⟩
  intro x hx
  rw [htake, List.mem_append, List.mem_singleton] at hx
  rcases hx with hx | rfl
  · rw [hbefore x hx last List.mem_cons_self]
    rfl
  · have hrefl : cmp (value x) (value x) = .eq := ReflCmp.compare_self
    rw [hrefl]
    rfl

namespace IsListing

variable {p : CheckedPlan} (hp : p.IsListing) {t : Table}

include hp

theorem rowsFrom_increasing {place : Option (String → Cell)} (hmode : p.cursorMode = .keyset)
    (ht : p.HasKeys t) :
    (p.rowsFrom t place).Pairwise fun a b => p.rowOrder (t.value a) (t.value b) = .lt := by
  have hincreasing := hp.rows_increasing hmode ht
  cases place with
  | none => exact hincreasing
  | some value => exact hincreasing.filter _

/-- What a walk from a place on delivers, and that it misses no place in the order that is taken in
the state of every page. -/
theorem exists_delivers {store : Nat → Store} {pageSize : UInt32} {timeoutMs : UInt64}
    {generation : UInt64} {clock : Nat → Int} {rowsAt : Nat → List (List Cell)} {page : Nat}
    {cursor : Cursor} {outcomes : List PageOutcome} {left : Option Cursor}
    (place : Option (String → Cell)) (hmode : p.cursorMode = .keyset) (hsize : 1 ≤ pageSize.toNat)
    (ht : ∀ page, p.HasKeys (t.withRows (rowsAt page)))
    (hfound : ∀ page, Schema.find? (store page).tables p.entity.table = some (t.withRows (rowsAt page)))
    (hwalk : (p.compile generation).Walk (fun page => (store page).fetch (clock page) timeoutMs)
      pageSize page cursor outcomes left)
    (hcursor : cursor = p.cursorAt place) (hplace : ∀ start ∈ place, p.IsKey t start) :
    ∃ delivered, p.Delivers (fun page => t.withRows (rowsAt page)) page place outcomes delivered ∧
      (left = none → ∀ value, (∀ start ∈ place, p.rowOrder start value = .lt) →
        p.StaysAt (fun page => t.withRows (rowsAt page)) page outcomes.length value →
        ∃ d ∈ delivered.flatten, p.rowOrder value d = .eq) := by
  induction hwalk generalizing place with
  | pause page cursor =>
    refine ⟨[], Delivers.nil p _ page place, ?_⟩
    intro hended
    cases hended
  | @last page cursor outcome executed ended =>
    subst hcursor
    obtain ⟨-, houtcome⟩ := hp.executePage_ok generation hmode (ht page)
      (fun start hstart => isKey_withRows_iff.mpr (hplace start hstart)) (hfound page) executed
    rw [houtcome, outcome_hasMore, decide_eq_false_iff_not] at ended
    have hrecords : outcome.records =
        (p.rowsFrom (t.withRows (rowsAt page)) place).map (p.record (t.withRows (rowsAt page))) := by
      rw [houtcome, outcome_records, List.take_of_length_le (by omega)]
    refine ⟨[_], (Delivers.nil p _ (page + 1) none).cons hrecords (fun row hrow => hrow)
      (hp.rowsFrom_increasing hmode (ht page)) (by simp) (by simp), ?_⟩
    intro _ value hvalue hstays
    obtain ⟨row, hrow, heq⟩ := hstays 0 Nat.one_pos
    refine ⟨(t.withRows (rowsAt page)).value row, ?_, heq⟩
    rw [List.flatten_singleton]
    apply List.mem_map_of_mem
    apply mem_rowsFrom_iff.mpr
    exact ⟨hrow, fun start hstart => TransCmp.lt_of_lt_of_eq (hvalue start hstart) heq⟩
  | @more page cursor next outcome outcomes left executed goesOn points rest ih =>
    subst hcursor
    obtain ⟨-, houtcome⟩ := hp.executePage_ok generation hmode (ht page)
      (fun start hstart => isKey_withRows_iff.mpr (hplace start hstart)) (hfound page) executed
    rw [houtcome, outcome_hasMore, decide_eq_true_eq] at goesOn
    have hindex : pageSize.toNat - 1 < (p.rowsFrom (t.withRows (rowsAt page)) place).length := by omega
    have hlast := List.getElem?_eq_getElem hindex
    generalize (p.rowsFrom (t.withRows (rowsAt page)) place)[pageSize.toNat - 1] = last at hlast
    have hlastMem := List.mem_of_getElem? hlast
    have hlastKey := (ht page).isKey last (mem_rowsFrom_iff.mp hlastMem).1
    have hgetLast : ((p.rowsFrom (t.withRows (rowsAt page)) place).take pageSize.toNat).getLast? =
        some last := by
      rw [List.getLast?_take, if_neg (by omega), hlast]
      rfl
    rw [houtcome, outcome_next _ _ _ hp hmode hgetLast hlastKey goesOn] at points
    have hplaceNext : ∀ start ∈ some ((t.withRows (rowsAt page)).value last), p.IsKey t start := by
      intro start hstart
      rw [← Option.some_inj.mp hstart]
      exact isKey_withRows_iff.mp hlastKey
    obtain ⟨delivered, hdelivers, hends⟩ := ih _ (Option.some_inj.mp points).symm hplaceNext
    obtain ⟨hbefore, hbehind⟩ :=
      last_of_pairwise (hp.rowsFrom_increasing hmode (ht page)) hsize hlast
    have hafterLast := hdelivers.after _ rfl
    have hrecords : outcome.records =
        ((p.rowsFrom (t.withRows (rowsAt page)) place).take pageSize.toNat).map
          (p.record (t.withRows (rowsAt page))) := by
      rw [houtcome, outcome_records]
    refine ⟨_ :: delivered, hdelivers.cons hrecords (fun row hrow => List.mem_of_mem_take hrow)
      ((hp.rowsFrom_increasing hmode (ht page)).sublist (List.take_sublist _ _)) ?_ ?_, ?_⟩
    · intro start hstart value hvalue
      exact TransCmp.lt_trans ((mem_rowsFrom_iff.mp hlastMem).2 start hstart) (hafterLast value hvalue)
    · intro row hrow value hvalue
      exact TransCmp.lt_of_isLE_of_lt (hbefore row hrow) (hafterLast value hvalue)
    · intro hended value hvalue hstays
      rw [List.flatten_cons]
      by_cases hlater : p.rowOrder ((t.withRows (rowsAt page)).value last) value = .lt
      · have hnext : ∀ start ∈ some ((t.withRows (rowsAt page)).value last),
            p.rowOrder start value = .lt := by
          intro start hstart
          rw [← Option.some_inj.mp hstart]
          exact hlater
        obtain ⟨d, hd, heq⟩ := hends hended value hnext hstays.step
        exact ⟨d, List.mem_append_right _ hd, heq⟩
      · -- The row is on this page, since what is left of the state comes after its last row.
        obtain ⟨row, hrow, heq⟩ := hstays 0 (Nat.succ_pos _)
        have hrest : row ∈ p.rowsFrom (t.withRows (rowsAt page)) place :=
          mem_rowsFrom_iff.mpr
            ⟨hrow, fun start hstart => TransCmp.lt_of_lt_of_eq (hvalue start hstart) heq⟩
        rw [← List.take_append_drop pageSize.toNat (p.rowsFrom _ place), List.mem_append] at hrest
        rcases hrest with hrest | hrest
        · exact ⟨_, List.mem_append_left _ (List.mem_map_of_mem hrest), heq⟩
        · have hlt := TransCmp.lt_of_lt_of_eq (hbehind row hrest) (OrientedCmp.eq_symm heq)
          exact absurd hlt hlater

end IsListing

end CheckedPlan

/-- In an increasing list one element at most is at a given place in the order. -/
theorem length_filter_eq_one {α : Type} {cmp : α → α → Ordering} [TransCmp cmp] {xs : List α} {x y : α}
    (h : xs.Pairwise fun a b => cmp a b = .lt) (hy : y ∈ xs) (heq : cmp x y = .eq) :
    (xs.filter fun z => cmp x z == .eq).length = 1 := by
  have hmem : y ∈ xs.filter fun z => cmp x z == .eq :=
    List.mem_filter.mpr ⟨hy, beq_iff_eq.mpr heq⟩
  have hfilter := h.filter fun z => cmp x z == .eq
  have hall : ∀ z ∈ xs.filter (fun z => cmp x z == .eq), cmp x z = .eq := by
    intro z hz
    exact beq_iff_eq.mp (List.mem_filter.mp hz).2
  generalize (xs.filter fun z => cmp x z == .eq) = found at hmem hfilter hall
  cases found with
  | nil => cases hmem
  | cons a rest =>
    cases rest with
    | nil => rfl
    | cons b rest =>
      have hlt := (List.pairwise_cons.mp hfilter).1 b List.mem_cons_self
      have ha := hall a List.mem_cons_self
      have hb := hall b (List.mem_cons_of_mem _ List.mem_cons_self)
      rw [TransCmp.eq_trans (OrientedCmp.eq_symm ha) hb] at hlt
      cases hlt

/-- While the rows of the table change between the pages, a walk over a keyset query delivers rows
that strictly increase in the order of the plan; and once it has ended, it has delivered just one
row of every place in the order at which there was a row of the plan in the state of every page. -/
theorem CheckedPlan.delivers_of_walk {source : String} {d : CatalogDefinition} {g : UInt64}
    {c : Catalog} {policy : LimitPolicy} {plan : Plan} {p : CheckedPlan} {t : Table}
    {rowsAt : Nat → List (List Cell)} {store : Nat → Store} {clock : Nat → Int} {pageSize : UInt32}
    {generation timeoutMs : UInt64} {outcomes : List PageOutcome} {left : Option Cursor}
    (hc : Catalog.ofDefinition source d g = .ok c) (hplan : plan.check c policy = .ok p)
    (hmode : (p.compile generation).cursorMode = .keyset) (hsize : 1 ≤ pageSize.toNat)
    (ht : ∀ page, p.HasKeys (t.withRows (rowsAt page)))
    (hfound : ∀ page, Schema.find? (store page).tables p.entity.table = some (t.withRows (rowsAt page)))
    (hwalk : (p.compile generation).Walk (fun page => (store page).fetch (clock page) timeoutMs)
      pageSize 1 .start outcomes left) :
    ∃ delivered,
      p.Delivers (fun page => t.withRows (rowsAt page)) 1 none outcomes delivered ∧
      (left = none → ∀ value,
        p.StaysAt (fun page => t.withRows (rowsAt page)) 1 outcomes.length value →
        (delivered.flatten.filter fun d => p.rowOrder value d == .eq).length = 1) := by
  have hp := Plan.isListing_of_check hc hplan (operation_of_cursorMode hmode)
  obtain ⟨delivered, hdelivers, hends⟩ := hp.exists_delivers none hmode hsize ht hfound hwalk
    rfl (by simp)
  refine ⟨delivered, hdelivers, ?_⟩
  intro hended value hstays
  obtain ⟨row, hrow, heq⟩ := hends hended value (by simp) hstays
  exact length_filter_eq_one hdelivers.increasing hrow heq

namespace NumberedBooks

/-- Two of three books are gone when the second page is read, and another one has come. -/
def rowsAt (page : Nat) : List (List Cell) :=
  if page = 1 then [[.integer 1], [.integer 2], [.integer 3]] else [[.integer 3], [.integer 4]]

def tableAt (page : Nat) : Table := (table "id").withRows (rowsAt page)

def storeAt (page : Nat) : Store := { tables := [tableAt page] }

theorem tableAt_eq (page : Nat) : tableAt page = tableAt 1 ∨ tableAt page = tableAt 2 := by
  by_cases h : page = 1
  · rw [h]
    exact .inl rfl
  · right
    rw [tableAt, rowsAt, if_neg h]
    rfl

theorem hasKeysAt (page : Nat) : (checked "id").HasKeys (tableAt page) := by
  rcases tableAt_eq page with h | h
  all_goals
    rw [h]
    apply CheckedPlan.HasKeys.of_numberedRows
    · decide
    · intro row hrow
      constructor
      all_goals
        revert row
        decide
    · decide

theorem foundAt (page : Nat) : Schema.find? (storeAt page).tables "book" = some (tableAt page) := by
  rw [storeAt]
  rcases tableAt_eq page with h | h
  all_goals
    rw [h]
    decide

/-- The rows are already in the order of the plan. -/
theorem rows_tableAt (page : Nat) :
    (checked "id").rows (tableAt page) = (tableAt page).numberedRows := by
  rcases tableAt_eq page with h | h
  all_goals
    rw [h, CheckedPlan.rows_eq, Table.sortedBy, List.mergeSort_of_pairwise]
    · decide
    · decide

theorem isListing : (checked "id").IsListing :=
  Plan.isListing_of_check (ofDefinition_definition (by decide)) (check_plan (by decide)) rfl

theorem serves_storeAt (page : Nat) : (storeAt page).Serves "book" (tableAt page) where
  free := rfl
  readable := rfl
  found := foundAt page
  ends := rfl

theorem shows_tableAt (page : Nat) :
    ∀ row ∈ (checked "id").rows (tableAt page), (checked "id").Shows (tableAt page) row := by
  rw [rows_tableAt]
  unfold CheckedPlan.Shows
  rcases tableAt_eq page with h | h
  all_goals
    rw [h]
    decide

/-- The first two books. -/
theorem executePage_first :
    ((checked "id").compile 1).executePage ((storeAt 1).fetch 0 5000) 2 .start 1 =
      .ok (((checked "id").compile 1).pageOutcome 2 .start 1
        (((tableAt 1).numberedRows.take 3).map ((checked "id").record (tableAt 1)))) := by
  have hlimits : ((checked "id").pageAt 1 2 none).IsWithinLimits 5000 := by
    constructor
    all_goals decide
  have hexecuted := isListing.executePage_eq 1 0 none rfl (hasKeysAt 1) (by simp) (serves_storeAt 1)
    (by decide) hlimits (shows_tableAt 1) 1
  rw [CheckedPlan.rowsFrom, rows_tableAt] at hexecuted
  exact hexecuted

/-- The second of the first two books, after which the second page begins. -/
def lastValue : String → Cell := (tableAt 1).value ⟨2, [.integer 2]⟩

/-- The books after the second one, when it is gone. -/
theorem executePage_second :
    ((checked "id").compile 1).executePage ((storeAt 2).fetch 0 5000) 2 (.keyset [.integer 2]) 2 =
      .ok (((checked "id").compile 1).pageOutcome 2 (.keyset [.integer 2]) 2
        (((tableAt 2).numberedRows.take 3).map ((checked "id").record (tableAt 2)))) := by
  have hkey : (checked "id").IsKey (tableAt 2) lastValue := by
    constructor
    all_goals decide
  have hfilter : (checked "id").rowsAfter (tableAt 2) lastValue = (tableAt 2).numberedRows := by
    rw [CheckedPlan.rowsAfter, rows_tableAt]
    decide
  have hlimits : ((checked "id").pageAt 1 2 (some lastValue)).IsWithinLimits 5000 := by
    constructor
    all_goals decide
  have hexecuted := isListing.executePage_eq 1 0 (some lastValue) rfl (hasKeysAt 2)
    (by simpa using hkey) (serves_storeAt 2) (by decide) hlimits
    (fun row hrow => shows_tableAt 2 row (List.mem_of_mem_filter hrow)) 2
  rw [CheckedPlan.rowsFrom, hfilter] at hexecuted
  exact hexecuted

theorem walk_storeAt : ∃ outcomes, outcomes.length = 2 ∧
    ((checked "id").compile 1).Walk (fun page => (storeAt page).fetch 0 5000) 2 1 .start outcomes none :=
  ⟨_, rfl, .more executePage_first (by decide) (by decide)
    (.last executePage_second (by decide))⟩

theorem staysAt_third :
    (checked "id").StaysAt tableAt 1 2 ((tableAt 1).value ⟨3, [.integer 3]⟩) := by
  have hstays : ∀ i < 2, ∃ row ∈ (tableAt (1 + i)).numberedRows, (checked "id").rowOrder
      ((tableAt 1).value ⟨3, [.integer 3]⟩) ((tableAt (1 + i)).value row) = .eq := by
    decide
  intro i hi
  rw [rows_tableAt]
  exact hstays i hi

/-- The third book is delivered once although those before it go while the walk is under way. -/
theorem delivers_third : ∃ outcomes delivered,
    (checked "id").Delivers tableAt 1 none outcomes delivered ∧
      (delivered.flatten.filter fun d =>
        (checked "id").rowOrder ((tableAt 1).value ⟨3, [.integer 3]⟩) d == .eq).length = 1 := by
  obtain ⟨outcomes, hlength, hwalk⟩ := walk_storeAt
  obtain ⟨delivered, hdelivers, hends⟩ := CheckedPlan.delivers_of_walk
    (ofDefinition_definition (by decide)) (check_plan (by decide)) rfl (by decide) hasKeysAt foundAt hwalk
  exact ⟨outcomes, delivered, hdelivers, hends rfl _ (hlength ▸ staysAt_third)⟩

end NumberedBooks

end CatalogQuery
