import CatalogQuery.Proofs.KeysetWalk
import CatalogQuery.Proofs.PageWindow
/-!
# Walks by a number of rows

A page can also be located by the number of rows before it, which follows from its own number. A query
without a keyset is walked through in this way only; in the walk of a keyset query any of the cursors can
be replaced by this number. Over records that do not change such a walk cuts them into its pages too.
-/
namespace CatalogQuery

/-- The cursor of a page by the number of rows on the pages before it, all of which are full. -/
def Cursor.counted (pageSize : UInt32) (pages : Nat) : Cursor :=
  .offset (.ofNat (pages * pageSize.toNat))

/-- The numbers of the pages of so many records have thirty-two bits, and the rows before a page are few
enough to be passed over. -/
def NumbersFit (pageSize : UInt32) (count : Nat) : Prop :=
  ∀ pages, pages * pageSize.toNat < count → pages + 1 < pow2 32 ∧ pages * pageSize.toNat < pow2 63

/-- A whole walk from a page and its cursor on in which the next page is located by the number of rows
before it, after the pages for which this is said, and otherwise by the cursor of the answer. -/
inductive CompiledQuery.MixedWalk (q : CompiledQuery) (backend : Nat → Backend) (pageSize : UInt32)
    (counts : Nat → Bool) : Nat → Cursor → List PageOutcome → Prop
  /-- The page says that there are no more. -/
  | last {page : Nat} {cursor : Cursor} {outcome : PageOutcome}
      (executed : q.executePage (backend page) pageSize cursor (.ofNat page) = .ok outcome)
      (ended : outcome.hasMore = false) : MixedWalk q backend pageSize counts page cursor [outcome]
  /-- The page says where the next one begins, which may be said in another way. -/
  | more {page : Nat} {cursor next : Cursor} {outcome : PageOutcome} {outcomes : List PageOutcome}
      (executed : q.executePage (backend page) pageSize cursor (.ofNat page) = .ok outcome)
      (goesOn : outcome.hasMore = true) (points : outcome.next = some next)
      (rest : MixedWalk q backend pageSize counts (page + 1)
        (if counts page then .counted pageSize page else next) outcomes) :
      MixedWalk q backend pageSize counts page cursor (outcome :: outcomes)

/-- From a page and its cursor on the walk ends, and its pages are the records cut into pieces. -/
def CompiledQuery.CutsInPages (q : CompiledQuery) (backend : Nat → Backend) (pageSize : UInt32)
    (counts : Nat → Bool) (page : Nat) (cursor : Cursor) (records : List Row) : Prop :=
  ∃ outcomes, q.MixedWalk backend pageSize counts page cursor outcomes ∧
    IsPartition pageSize.toNat outcomes records

/-- After any pages with more to come the walk can go on by the number of rows so far, and its pages are what
is left. -/
def CompiledQuery.GoesOnByCount (q : CompiledQuery) (backend : Nat → Backend) (pageSize : UInt32)
    (counts : Nat → Bool) (records : List Row) : Prop :=
  ∀ pages, pages * pageSize.toNat < records.length →
    q.CutsInPages backend pageSize counts (pages + 1) (.counted pageSize pages)
      (records.drop (pages * pageSize.toNat))

namespace CompiledQuery

variable {q : CompiledQuery} {backend : Nat → Backend} {pageSize : UInt32} {records : List Row}

/-- A walk that has ended is the only one from its page and cursor on. -/
theorem Walk.unique {page : Nat} {cursor : Cursor} {outcomes outcomes' : List PageOutcome}
    {left : Option Cursor} (h : q.Walk backend pageSize page cursor outcomes left) (hleft : left = none)
    (h' : q.Walk backend pageSize page cursor outcomes' none) : outcomes = outcomes' := by
  induction h generalizing outcomes' with
  | pause page cursor => cases hleft
  | last executed ended =>
    cases h' with
    | last executed' =>
      rw [executed] at executed'
      rw [Except.ok.inj executed']
    | more executed' goesOn =>
      rw [executed] at executed'
      rw [← Except.ok.inj executed', ended] at goesOn
      cases goesOn
  | more executed goesOn points rest ih =>
    cases h' with
    | last executed' ended =>
      rw [executed] at executed'
      rw [← Except.ok.inj executed', goesOn] at ended
      cases ended
    | more executed' _ points' rest' =>
      rw [executed] at executed'
      obtain rfl := Except.ok.inj executed'
      rw [points] at points'
      obtain rfl := Option.some_inj.mp points'
      rw [ih hleft rest']

/-- A walk without a cursor replaced is a walk. -/
theorem MixedWalk.walk {page : Nat} {cursor : Cursor} {outcomes : List PageOutcome}
    (h : q.MixedWalk backend pageSize (fun _ => false) page cursor outcomes) :
    q.Walk backend pageSize page cursor outcomes none := by
  induction h with
  | last executed ended => exact .last executed ended
  | more executed goesOn points rest ih => exact .more executed goesOn points ih

/-- The cursor brings the records that come after so many full pages, one more than the page holds. -/
def Locates (q : CompiledQuery) (backend : Nat → Backend) (pageSize : UInt32) (records : List Row)
    (pages : Nat) (cursor : Cursor) : Prop :=
  q.executePage (backend (pages + 1)) pageSize cursor (.ofNat (pages + 1)) =
    .ok (q.pageOutcome pageSize cursor (.ofNat (pages + 1))
      ((records.drop (pages * pageSize.toNat)).take (pageSize.toNat + 1)))

theorem locates_start (h : q.BringsWindows (backend 1) records) (pageSize : UInt32) :
    q.Locates backend pageSize records 0 .start := by
  have hpage : q.page? pageSize .start = some { q.base with limit := some (windowLimit pageSize) } := rfl
  rw [Locates, executePage, hpage]
  simp only [h.start, Nat.zero_mul, List.drop_zero]

theorem locates_counted {pages : Nat} (h : q.BringsWindows (backend (pages + 1)) records)
    (hrows : pages * pageSize.toNat < pow2 63) :
    q.Locates backend pageSize records pages (.counted pageSize pages) := by
  have hpage : q.page? pageSize (.counted pageSize pages) = some { q.base with
      limit := some (windowLimit pageSize),
      offset := some (windowOffset (.ofNat (pages * pageSize.toNat))) } := rfl
  rw [Locates, executePage, hpage]
  simp only [h.counted pageSize hrows]

/-- Where no key values are read from the last row, as without a keyset, the next page is located by the
number of rows before it. -/
theorem after_eq_counted {last : Row} {page : Nat}
    (hvalues : q.cursorMode = .keyset → Cursor.keyValues? q last = none) (hpage : page < pow2 32) :
    Cursor.after q last pageSize (.ofNat page) = .counted pageSize page := by
  have hpow : pow2 32 = 2 ^ 32 := rfl
  have hnat : (UInt32.ofNat page).toNat = page := by
    rw [UInt32.toNat_ofNat']
    omega
  rw [Cursor.after, hnat]
  cases hmode : q.cursorMode with
  | offset => rfl
  | keyset =>
    simp only [hvalues hmode]
    rfl

section Step

variable {counts : Nat → Bool} {page : Nat} {cursor : Cursor} {left : List Row}
  (h : q.executePage (backend page) pageSize cursor (.ofNat page) =
    .ok (q.pageOutcome pageSize cursor (.ofNat page) (left.take (pageSize.toNat + 1))))

include h

/-- The walk ends with the page that has all records that are left. -/
theorem cutsInPages_last (hfits : left.length ≤ pageSize.toNat) :
    q.CutsInPages backend pageSize counts page cursor left := by
  have hended : (q.pageOutcome pageSize cursor (.ofNat page)
      (left.take (pageSize.toNat + 1))).hasMore = false := by
    rw [pageOutcome_take_hasMore]
    exact decide_eq_false (Nat.not_lt.mpr hfits)
  have hpartition := IsPartition.singleton
    (show (q.pageOutcome pageSize cursor (.ofNat page) (left.take (pageSize.toNat + 1))).records.length ≤
      pageSize.toNat by rw [pageOutcome_take_records, List.length_take]; omega) hended
  rw [pageOutcome_take_records, List.take_of_length_le hfits] at hpartition
  exact ⟨[_], .last h hended, hpartition⟩

/-- A page with more records left than it has is put in front of the pages with these. -/
theorem cutsInPages_more {last : Row} (hmore : pageSize.toNat < left.length)
    (hlast : (left.take pageSize.toNat).getLast? = some last)
    (hrest : q.CutsInPages backend pageSize counts (page + 1)
      (if counts page then .counted pageSize page else Cursor.after q last pageSize (.ofNat page))
      (left.drop pageSize.toNat)) :
    q.CutsInPages backend pageSize counts page cursor left := by
  have hgoesOn : (q.pageOutcome pageSize cursor (.ofNat page)
      (left.take (pageSize.toNat + 1))).hasMore = true := by
    rw [pageOutcome_take_hasMore]
    exact decide_eq_true hmore
  obtain ⟨outcomes, hwalk, hpartition⟩ := hrest
  have hcons := hpartition.cons (by rw [pageOutcome_take_records, List.length_take_of_le hmore.le])
    hgoesOn
  rw [pageOutcome_take_records, List.take_append_drop] at hcons
  exact ⟨_ :: outcomes, .more h hgoesOn (pageOutcome_take_next hlast hmore) hwalk, hcons⟩

end Step

/-- If every page that is not the last leads to one that brings what comes next, the walk from such a page
on cuts what is left into its pages. -/
theorem cutsInPages_of_locates {counts : Nat → Bool} (hsize : 1 ≤ pageSize.toNat)
    (hnext : ∀ pages last, (pages + 1) * pageSize.toNat < records.length →
      records[(pages + 1) * pageSize.toNat - 1]? = some last →
      q.Locates backend pageSize records (pages + 1)
        (if counts (pages + 1) then .counted pageSize (pages + 1)
          else Cursor.after q last pageSize (.ofNat (pages + 1))))
    (pages : Nat) {cursor : Cursor} (h : q.Locates backend pageSize records pages cursor) :
    q.CutsInPages backend pageSize counts (pages + 1) cursor
      (records.drop (pages * pageSize.toNat)) := by
  induction hlength : (records.drop (pages * pageSize.toNat)).length using Nat.strong_induction_on
    generalizing pages cursor with
  | _ count ih =>
    have hstep : (pages + 1) * pageSize.toNat = pages * pageSize.toNat + pageSize.toNat :=
      Nat.succ_mul pages _
    rw [List.length_drop] at hlength
    by_cases hmore : (pages + 1) * pageSize.toNat < records.length
    · obtain ⟨last, hlast⟩ : ∃ last, records[(pages + 1) * pageSize.toNat - 1]? = some last :=
        ⟨_, List.getElem?_eq_getElem (by omega)⟩
      have hrest := ih _ (by rw [← hlength]; omega) (pages + 1) (hnext pages last hmore hlast)
        (List.length_drop ..)
      rw [hstep] at hlast
      rw [hstep, ← List.drop_drop] at hrest
      apply cutsInPages_more h _ _ hrest
      · rw [List.length_drop]
        omega
      · rw [List.getLast?_take, if_neg (by omega), List.getElem?_drop, ← Nat.add_sub_assoc hsize, hlast]
        rfl
    · apply cutsInPages_last h
      rw [List.length_drop]
      omega

/-- The walk of a query without a keyset cuts the records that the backend has into its pages. -/
theorem exists_walk_of_offset (hmode : q.cursorMode = .offset) (hsize : 1 ≤ pageSize.toNat)
    (hnumbers : NumbersFit pageSize records.length)
    (hbackend : ∀ page, q.BringsWindows (backend page) records) :
    ∃ outcomes, q.Walk backend pageSize 1 .start outcomes none ∧
      IsPartition pageSize.toNat outcomes records := by
  have hnext : ∀ pages last, (pages + 1) * pageSize.toNat < records.length →
      records[(pages + 1) * pageSize.toNat - 1]? = some last →
      q.Locates backend pageSize records (pages + 1)
        (Cursor.after q last pageSize (.ofNat (pages + 1))) := by
    intro pages last hcount _
    obtain ⟨hpage, hrows⟩ := hnumbers (pages + 1) hcount
    rw [after_eq_counted (by simp [hmode]) (by omega)]
    exact locates_counted (hbackend _) hrows
  have hcuts : q.CutsInPages backend pageSize (fun _ => false) 1 .start
      (records.drop (0 * pageSize.toNat)) :=
    cutsInPages_of_locates hsize hnext 0 (locates_start (hbackend 1) pageSize)
  obtain ⟨outcomes, hwalk, hpartition⟩ := hcuts
  rw [Nat.zero_mul, List.drop_zero] at hpartition
  exact ⟨outcomes, hwalk.walk, hpartition⟩

end CompiledQuery

namespace CheckedPlan

/-- A plan has no keyset just if it is for aggregates or is ordered by no field that is unique and never
null. -/
theorem cursorMode_eq_offset_iff {p : CheckedPlan} :
    p.cursorMode = .offset ↔ p.operation = .aggregate ∨
      ∀ o ∈ p.orderBy, ∀ f, o.target = .field f → ¬(f.unique = true ∧ f.nullable = false) := by
  have hapart : p.tellsRowsApart = true ↔
      ∃ o ∈ p.orderBy, ∃ f, o.target = .field f ∧ f.unique = true ∧ f.nullable = false := by
    rw [tellsRowsApart, List.any_eq_true]
    refine exists_congr fun o => and_congr_right fun _ => ?_
    cases htarget : o.target with
    | field f => simp [Field.identifiesRows]
    | aggregate index => simp
  rw [cursorMode]
  cases hoperation : p.operation with
  | aggregate => simp
  | list => simp [hapart]

namespace IsListing

variable {p : CheckedPlan} (hp : p.IsListing) {t : Table} {store : Store} {pageSize : UInt32}
  {timeoutMs generation : UInt64}

include hp

/-- The cursor of the last row of full pages brings what comes after them. -/
theorem locates_cursorAt {pages : Nat} {last : StoredRow} (hmode : p.cursorMode = .keyset)
    (ht : p.HasKeys t) (hstore : store.Serves p.entity.table t)
    (hreserved : (p.compile generation).base.reservedWord? = none)
    (hlimits : p.FitsLimits generation pageSize timeoutMs t) (hshows : ∀ row ∈ p.rows t, p.Shows t row)
    (clock : Nat → Int) (hpages : 1 ≤ pages * pageSize.toNat)
    (hlast : (p.rows t)[pages * pageSize.toNat - 1]? = some last)
    (hwith : p.enclosesWith (t.value last) = false) :
    (p.compile generation).Locates (fun page => store.fetch (clock page) timeoutMs) pageSize
      ((p.rows t).map (p.record t)) pages (p.cursorAt (some (t.value last))) := by
  have hmem := List.mem_of_getElem? hlast
  have hrows : p.rowsFrom t (some (t.value last)) = (p.rows t).drop (pages * pageSize.toNat) :=
    hp.rowsAfter_eq _ hmode ht (eq_take_append_cons_drop hpages hlast)
  have hkey : ∀ value ∈ some (t.value last), p.IsKey t value := by
    rintro value ⟨⟩
    exact ht.isKey last hmem
  have hopen : ∀ value ∈ some (t.value last), p.enclosesWith value = false := by
    rintro value ⟨⟩
    exact hwith
  have hexecuted := hp.executePage_eq generation (clock (pages + 1)) (some (t.value last)) hmode ht hkey
    hstore ((hp.pageAt_reservedWord?_iff generation hmode hkey).mpr ⟨hreserved, hopen⟩)
    (hlimits.next last hmem)
    (fun row hrow => hshows row (List.mem_of_mem_drop (hrows ▸ hrow))) (.ofNat (pages + 1))
  rw [hrows, outcome_eq, List.map_drop] at hexecuted
  exact hexecuted

/-- A walk that locates some of its pages by their numbers cuts the rows of the plan into its pages, if
no boundary is in the way of a page that it locates by a row. -/
theorem cutsInPages {counts : Nat → Bool} (hmode : p.cursorMode = .keyset) (hsize : 1 ≤ pageSize.toNat)
    (ht : p.HasKeys t) (hstore : store.Serves p.entity.table t)
    (hreserved : (p.compile generation).base.reservedWord? = none)
    (hlimits : p.FitsLimits generation pageSize timeoutMs t)
    (hcounted : ∀ rows, (p.countedPage generation pageSize rows).isTooLarge = false)
    (hnumbers : NumbersFit pageSize ((p.rows t).map (p.record t)).length)
    (hshows : ∀ row ∈ p.rows t, p.Shows t row)
    (hopen : ∀ pages last, counts (pages + 1) = false →
      (pages + 1) * pageSize.toNat < (p.rows t).length →
      (p.rows t)[(pages + 1) * pageSize.toNat - 1]? = some last → p.enclosesWith (t.value last) = false)
    (clock : Nat → Int) :
    (p.compile generation).CutsInPages (fun page => store.fetch (clock page) timeoutMs) pageSize counts 1
        .start ((p.rows t).map (p.record t)) ∧
      (p.compile generation).GoesOnByCount (fun page => store.fetch (clock page) timeoutMs) pageSize
        counts ((p.rows t).map (p.record t)) := by
  have hwindows (page : Nat) : (p.compile generation).BringsWindows
      (store.fetch (clock page) timeoutMs) ((p.rows t).map (p.record t)) :=
    bringsWindows_of_fetch (hp.fetch_base_eq generation ht hstore hreserved hlimits.base hshows)
      (hcounted 0)
  have hnext : ∀ pages last, (pages + 1) * pageSize.toNat < ((p.rows t).map (p.record t)).length →
      ((p.rows t).map (p.record t))[(pages + 1) * pageSize.toNat - 1]? = some last →
      (p.compile generation).Locates (fun page => store.fetch (clock page) timeoutMs) pageSize
        ((p.rows t).map (p.record t)) (pages + 1)
        (if counts (pages + 1) then .counted pageSize (pages + 1)
          else Cursor.after (p.compile generation) last pageSize (.ofNat (pages + 1))) := by
    intro pages record hmore hrecord
    cases hcounts : counts (pages + 1) with
    | true => exact CompiledQuery.locates_counted (hwindows _) (hnumbers _ hmore).2
    | false =>
      rw [List.length_map] at hmore
      rw [List.getElem?_map, Option.map_eq_some_iff] at hrecord
      obtain ⟨last, hlast, rfl⟩ := hrecord
      rw [if_neg Bool.false_ne_true,
        hp.after_record generation hmode (ht.isKey last (List.mem_of_getElem? hlast))]
      exact hp.locates_cursorAt hmode ht hstore hreserved hlimits hshows clock
        (Nat.mul_pos (Nat.succ_pos pages) hsize) hlast (hopen pages last hcounts hmore hlast)
  constructor
  · have hcuts := CompiledQuery.cutsInPages_of_locates hsize hnext 0
      (CompiledQuery.locates_start (hwindows 1) pageSize)
    rw [Nat.zero_mul, List.drop_zero] at hcuts
    exact hcuts
  · intro pages hpages
    exact CompiledQuery.cutsInPages_of_locates hsize hnext pages
      (CompiledQuery.locates_counted (hwindows _) (hnumbers _ hpages).2)

end IsListing

end CheckedPlan

/-- Over records that do not change, the walk of a query without a keyset cuts what the backend has for it
into its pages. Such are the queries of the plans for aggregates and of those ordered by no field that is
unique and never null, and a store that brings the whole result is such a backend. In the walk of a keyset
query that goes through, the cursor after any page can be replaced by the number of rows so far: the pages
from there on are what is left, whichever of their cursors are replaced too. Where all of them are, no walk
has to go through for this. -/
theorem CheckedPlan.offset_pages_partition {source : String} {d : CatalogDefinition} {g : UInt64}
    {c : Catalog} {policy : LimitPolicy} {plan : Plan} {p : CheckedPlan} {pageSize : UInt32}
    (hc : Catalog.ofDefinition source d g = .ok c) (hplan : plan.check c policy = .ok p)
    (hsize : 1 ≤ pageSize.toNat) (generation : UInt64) :
    ((p.compile generation).cursorMode = .offset ↔ p.operation = .aggregate ∨
      ∀ o ∈ p.orderBy, ∀ f, o.target = .field f → ¬(f.unique = true ∧ f.nullable = false)) ∧
    ((p.compile generation).cursorMode = .offset → ∀ (backend : Nat → Backend) (records : List Row),
      (∀ page, (p.compile generation).BringsWindows (backend page) records) →
      NumbersFit pageSize records.length →
      ∃ outcomes, (p.compile generation).Walk backend pageSize 1 .start outcomes none ∧
        IsPartition pageSize.toNat outcomes records) ∧
    ∀ (store : Store) (timeoutMs : UInt64) (now : Int) (records : List Row),
      (∀ rows, (p.countedPage generation pageSize rows).isTooLarge = false) →
      store.fetch now timeoutMs (p.compile generation).base (p.compile generation).columns =
        .ok records →
      (p.compile generation).BringsWindows (store.fetch now timeoutMs) records ∧
      ((p.compile generation).cursorMode = .keyset → ∀ (t : Table) (clock : Nat → Int),
        store.Serves p.entity.table t → p.HasKeys t → p.FitsLimits generation pageSize timeoutMs t →
        NumbersFit pageSize records.length →
        (p.compile generation).GoesOnByCount (fun page => store.fetch (clock page) timeoutMs) pageSize
          (fun _ => true) records ∧
        ∀ outcomes, (p.compile generation).Walk (fun page => store.fetch (clock page) timeoutMs) pageSize
            1 .start outcomes none →
          IsPartition pageSize.toNat outcomes records ∧
          ∀ counts,
            (p.compile generation).CutsInPages (fun page => store.fetch (clock page) timeoutMs) pageSize
              counts 1 .start records ∧
            (p.compile generation).GoesOnByCount (fun page => store.fetch (clock page) timeoutMs)
              pageSize counts records) := by
  refine ⟨cursorMode_eq_offset_iff, fun hmode backend records hbackend hnumbers =>
    CompiledQuery.exists_walk_of_offset hmode hsize hnumbers hbackend, ?_⟩
  intro store timeoutMs now records hcounted hfetch
  refine ⟨bringsWindows_of_fetch hfetch (hcounted 0), ?_⟩
  intro hmode t clock hstore ht hlimits hnumbers
  have hp := Plan.isListing_of_check hc hplan (operation_of_cursorMode hmode)
  have hnames := hp.stores_of_mem_columnNames generation ht.stores
  obtain ⟨hreserved, hdecoded⟩ := Store.fetch_listing_ok (s := (p.compile generation).base) hstore.found
    (hp.base_isListing generation) hnames hfetch
  obtain ⟨hshows, rfl⟩ := hp.decodeRows_ok generation hdecoded
  constructor
  · apply (hp.cutsInPages hmode hsize ht hstore hreserved hlimits hcounted hnumbers hshows _ clock).2
    intro pages last hcounts
    cases hcounts
  · intro outcomes hwalk
    obtain ⟨-, -, hopen⟩ := hp.boundariesOpen_of_walk none hmode hsize ht hstore.found hwalk rfl rfl
      (Stands.start p t)
    obtain ⟨outcomes', hwalk', hpartition⟩ := hp.exists_walk none hmode hsize ht hshows hstore hlimits
      hreserved clock 1 (Stands.start p t) (by simp) hopen
    refine ⟨hwalk.unique rfl hwalk' ▸ hpartition, fun counts => ?_⟩
    exact hp.cutsInPages hmode hsize ht hstore hreserved hlimits hcounted hnumbers hshows
      (fun pages last _ => hopen pages last) clock

namespace NumberedBooks

def unordered : CheckedPlan := { checked "id" with orderBy := [] }

theorem check_unordered : (Plan.list "Book").check (catalog "id") {} = .ok unordered := by decide

theorem numbersFit {count : Nat} (hcount : count = 3) : NumbersFit 2 count := by
  intro pages hpages
  have hpow : pow2 32 = 2 ^ 32 ∧ pow2 63 = 2 ^ 63 := ⟨rfl, rfl⟩
  have hsize : (2 : UInt32).toNat = 2 := rfl
  rw [hsize] at hpages ⊢
  omega

theorem length_rows : ((checked "id").rows (table "id")).length = 3 := by
  rw [CheckedPlan.rows_eq, (Table.sortedBy_perm _ _ _).length_eq]
  decide

/-- The books in no order are walked through by their number, two to the page, and so can those in order
be after any of their pages. -/
theorem walks_by_count :
    (∃ records outcomes,
      (store "id").fetch 0 5000 (unordered.compile 1).base (unordered.compile 1).columns = .ok records ∧
      records.length = 3 ∧
      (unordered.compile 1).Walk (fun _ => (store "id").fetch 0 5000) 2 1 .start outcomes none ∧
      IsPartition 2 outcomes records) ∧
    ∃ records outcomes,
      (store "id").fetch 0 5000 ((checked "id").compile 1).base ((checked "id").compile 1).columns =
        .ok records ∧
      records.length = 3 ∧
      ((checked "id").compile 1).Walk (fun _ => (store "id").fetch 0 5000) 2 1 .start outcomes none ∧
      IsPartition 2 outcomes records ∧
      ((checked "id").compile 1).GoesOnByCount (fun _ => (store "id").fetch 0 5000) 2 (fun _ => false)
        records := by
  have hid : "id" ∈ names := by decide
  have hsize : 1 ≤ (2 : UInt32).toNat := by decide
  constructor
  · obtain ⟨-, hwalk, hstore⟩ := CheckedPlan.offset_pages_partition (ofDefinition_definition hid)
      check_unordered hsize 1
    have hfetch : (store "id").fetch 0 5000 (unordered.compile 1).base (unordered.compile 1).columns =
        .ok [[("id", .int 3)], [("id", .int 1)], [("id", .int 2)]] := rfl
    have hwindows := (hstore (store "id") 5000 0 _ (fun _ => rfl) hfetch).1
    obtain ⟨outcomes, houtcomes⟩ := hwalk rfl (fun _ => (store "id").fetch 0 5000) _
      (fun _ => hwindows) (numbersFit rfl)
    exact ⟨_, outcomes, hfetch, rfl, houtcomes⟩
  · obtain ⟨-, -, hstore⟩ := CheckedPlan.offset_pages_partition (ofDefinition_definition hid)
      (check_plan hid) hsize 1
    have hp := Plan.isListing_of_check (ofDefinition_definition hid) (check_plan hid) rfl
    have hreserved := (hp.reservedWord?_eq_none_iff 1).mpr isUnreserved
    have hfetch : (store "id").fetch 0 5000 ((checked "id").compile 1).base
        ((checked "id").compile 1).columns = .ok _ :=
      hp.fetch_base_eq 1 (hasKeys hid) (serves hid) hreserved (fitsLimits hid).base shows
    have hlength : (((checked "id").rows (table "id")).map
        ((checked "id").record (table "id"))).length = 3 := by
      rw [List.length_map, length_rows]
    obtain ⟨outcomes, hwalk, -⟩ := hp.exists_walk none rfl hsize (hasKeys hid) shows (serves hid)
      (fitsLimits hid) hreserved (fun _ => 0) 1 (CheckedPlan.Stands.start _ _) (by simp) boundariesOpen_id
    obtain ⟨-, hmixed⟩ := (hstore (store "id") 5000 0 _ (fun _ => rfl) hfetch).2 rfl (table "id")
      (fun _ => 0) (serves hid) (hasKeys hid) (fitsLimits hid) (numbersFit hlength)
    obtain ⟨hpartition, hcounts⟩ := hmixed outcomes hwalk
    exact ⟨_, outcomes, hfetch, hlength, hwalk, hpartition, (hcounts fun _ => false).2⟩

end NumberedBooks

end CatalogQuery
