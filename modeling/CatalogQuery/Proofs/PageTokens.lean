import CatalogQuery.Proofs.ChangingWalk
import CatalogQuery.Proofs.PageWindow
import CatalogQuery.Proofs.TokenLifetime
/-!
# Answers and their tokens

A page's statement brings one row more than the page holds, if there are so many. That row decides
whether there is a next page, and nothing else: it is not delivered, and the token for the next page is
made from the last row that is. Pages are numbered in thirty-two bits, so that the greatest number has
none after it: there a build that checks breaks off, and one that does not goes on with zero.
-/
namespace CatalogQuery

/-- A page's statement brings at most one row more than the page holds. -/
def CompiledQuery.KeepsWindow (q : CompiledQuery) (backend : Backend) (pageSize : UInt32)
    (cursor : Cursor) : Prop :=
  ∀ statement rows, q.page? pageSize cursor = some statement →
    backend statement q.columns = .ok rows → rows.length ≤ pageSize.toNat + 1

theorem CompiledQuery.page?_limit {q : CompiledQuery} {pageSize : UInt32} {cursor : Cursor}
    {statement : Statement Param} (h : q.page? pageSize cursor = some statement) :
    statement.limit = some (windowLimit pageSize) := by
  rw [page?] at h
  split at h
  next =>
    cases cursor <;> cases h <;> rfl
  next => cases h

namespace Statement

theorem length_window_le {β : Type} {s : Statement Cell} {n : Nat}
    (h : s.limit.bind rowCount? = some n) (rs : List β) : (s.window rs).length ≤ n := by
  rw [window, h]
  exact List.length_take_le n _

/-- A statement never shows more rows than its window. -/
theorem length_select_le {s : Statement Cell} {t : Table} {rows : List (List Cell)} {n : Nat}
    (hlimit : s.limit.bind rowCount? = some n) (h : s.select t = .ok rows) : rows.length ≤ n := by
  obtain ⟨-, -, rs, -, rfl⟩ := select_eq_ok_iff.mp h
  rw [List.length_map]
  exact length_window_le (s := s.suited t) hlimit _

end Statement

theorem length_of_decodeRows_eq_ok {columns : List OutputColumn} {rows : List (List Cell)}
    {records : List Row} (h : decodeRows columns rows = .ok records) :
    records.length = rows.length := by
  rw [decodeRows_eq_mapM] at h
  obtain ⟨record, -, rfl⟩ := exists_map_of_mapM_eq_ok h
  exact List.length_map record

/-- A store keeps to the windows of all pages. -/
theorem Store.fetch_keepsWindow (store : Store) (now : Int) (timeoutMs : UInt64) (q : CompiledQuery)
    (pageSize : UInt32) (cursor : Cursor) :
    q.KeepsWindow (store.fetch now timeoutMs) pageSize cursor := by
  intro statement records hpage hrecords
  obtain ⟨t, rows, -, -, hselect, hdecoded⟩ := fetch_eq_ok hrecords
  rw [length_of_decodeRows_eq_ok hdecoded]
  refine Statement.length_select_le ?_ hselect
  show (statement.limit.map Cell.ofParam).bind Statement.rowCount? = _
  rw [CompiledQuery.page?_limit hpage]
  exact rowCount?_windowLimit pageSize

namespace CompiledQuery

variable {q : CompiledQuery} {pageSize page : UInt32} {cursor : Cursor} {rows : List Row}

theorem pageOutcome_hasMore_iff (q : CompiledQuery) (cursor : Cursor) (page : UInt32)
    (hrows : rows.length ≤ pageSize.toNat + 1) :
    (q.pageOutcome pageSize cursor page rows).hasMore = true ↔ rows.length = pageSize.toNat + 1 := by
  show decide (pageSize.toNat < rows.length) = true ↔ _
  rw [decide_eq_true_iff]
  omega

/-- The next page begins after the last record that is delivered, if there is a row that is not. -/
theorem pageOutcome_next_eq_some_iff {next : Cursor} :
    (q.pageOutcome pageSize cursor page rows).next = some next ↔
      pageSize.toNat < rows.length ∧ ∃ last, (rows.take pageSize.toNat).getLast? = some last ∧
        Cursor.after q last pageSize page = next := by
  rw [pageOutcome, Option.ite_none_right_eq_some, Option.map_eq_some_iff]

/-- A page that can hold a row delivers one before the row that it does not. -/
theorem isSome_pageOutcome_next (hsize : 1 ≤ pageSize.toNat)
    (hrows : rows.length ≤ pageSize.toNat + 1) :
    (q.pageOutcome pageSize cursor page rows).next.isSome = true ↔
      rows.length = pageSize.toNat + 1 := by
  rw [Option.isSome_iff_exists]
  constructor
  · rintro ⟨next, hnext⟩
    obtain ⟨hmore, -⟩ := pageOutcome_next_eq_some_iff.mp hnext
    omega
  · intro hmore
    have hne : rows.take pageSize.toNat ≠ [] := by
      rw [← List.length_pos_iff, List.length_take]
      omega
    exact ⟨_, pageOutcome_next_eq_some_iff.mpr
      ⟨by omega, _, List.getLast?_eq_some_getLast hne, rfl⟩⟩

end CompiledQuery

/-- The page that is answered with. -/
def Stage.delivered? : Stage → Option (QueryData × PaginationInfo)
  | .answered (.success data _ pagination) _ _ => some (data, pagination)
  | _ => none

/-- A request answers with a page just where this has an outcome and its token can be made. -/
theorem Engine.delivered?_step_executed {e : Engine} {a : Ambient} {work : PageWork}
    {outcome : Except PageError PageOutcome} {data : QueryData} {pagination : PaginationInfo} :
    (e.step a (.executed work outcome)).2.delivered? = some (data, pagination) ↔
      ∃ page token, outcome = .ok page ∧ e.nextToken? a work page = some (.ok token) ∧
        data = .ofOperation work.query.operation page.records ∧
        pagination = ⟨token, page.hasMore, work.page⟩ := by
  cases outcome with
  | error err => simp [step, reject, Stage.delivered?]
  | ok page =>
    cases htoken : e.nextToken? a work page with
    | none => simp [step, htoken, Stage.delivered?]
    | some made =>
      cases made with
      | error err => simp [step, htoken, reject, Stage.delivered?]
      | ok token => simp [step, htoken, deliver, Stage.delivered?, eq_comm]

namespace CompiledQuery

/-- The claims go on after a record of a page: they name the same query and page size, the next page, in
thirty-two bits, and the cursor after the record, which the query accepts. -/
structure IsContinuedBy (q : CompiledQuery) (pageSize page : UInt32) (last : Row)
    (claims : PageClaims) : Prop where
  cursor : claims.cursor = Cursor.after q last pageSize page
  accepts : q.accepts claims.cursor = true
  keyset : ∀ values, claims.cursor = .keyset values →
    q.cursorMode = .keyset ∧ values.length = q.orderBy.length
  fingerprint : claims.fingerprint = q.fingerprint
  pageSize : claims.pageSize = pageSize
  page : claims.page.toNat = (page.toNat + 1) % pow2 32

/-- The answer fits the rows that were brought for a page: it delivers as many of them as the page holds,
and one more shows only in that there is a token, for after the last record delivered. -/
structure IsAnsweredBy (q : CompiledQuery) (pageSize page : UInt32) (config : TokenConfig)
    (rows : List Row) (data : QueryData) (pagination : PaginationInfo) : Prop where
  delivers : data = .ofOperation q.operation (rows.take (min rows.length pageSize.toNat))
  currentPage : pagination.currentPage = page
  hasMore : pagination.hasMore = true ↔ rows.length = pageSize.toNat + 1
  queryToken : pagination.queryToken.isSome = true ↔ rows.length = pageSize.toNat + 1
  continues : ∀ token, pagination.queryToken = some token →
    ∃ claims last, token = config.sign claims ∧ data.records.getLast? = some last ∧
      q.IsContinuedBy pageSize page last claims

end CompiledQuery

namespace PageWork

variable {work : PageWork} {e : Engine} {a : Ambient} {rows : List Row}

/-- A token for the page after one goes on after its last record. -/
theorem exists_continuation_of_nextToken? {token : String}
    (h : e.nextToken? a work (work.query.pageOutcome work.pageSize work.cursor work.page rows) =
      some (.ok (some token))) :
    ∃ claims last, token = e.codec.config.sign claims ∧
      (rows.take work.pageSize.toNat).getLast? = some last ∧
        work.query.IsContinuedBy work.pageSize work.page last claims := by
  cases hnext : (work.query.pageOutcome work.pageSize work.cursor work.page rows).next with
  | none =>
    rw [Engine.nextToken?, hnext] at h
    cases h
  | some next =>
    obtain ⟨number, claims, hnumber, hclaims, htoken⟩ := (Engine.nextToken?_eq_some_iff hnext).mp h
    obtain ⟨-, last, hlast, rfl⟩ := CompiledQuery.pageOutcome_next_eq_some_iff.mp hnext
    obtain ⟨-, rfl⟩ := nextPage?_eq_some_iff.mp hnumber
    obtain ⟨-, rfl⟩ := TokenConfig.newClaims?_eq_some_iff.mp hclaims
    have haccepts := work.query.accepts_after last work.pageSize work.page
    refine ⟨_, last, Option.some.inj htoken, hlast, rfl, haccepts, ?_, rfl, rfl,
      UInt32.toNat_add work.page 1⟩
    intro values hvalues
    exact CompiledQuery.accepts_keyset_iff.mp (hvalues ▸ haccepts)

/-- What is answered with for the outcome of some rows fits them. -/
theorem isAnsweredBy_of_delivered? (hsize : 1 ≤ work.pageSize.toNat)
    (hrows : rows.length ≤ work.pageSize.toNat + 1) {data : QueryData} {pagination : PaginationInfo}
    (h : (e.step a (.executed work (.ok
      (work.query.pageOutcome work.pageSize work.cursor work.page rows)))).2.delivered? =
        some (data, pagination)) :
    work.query.IsAnsweredBy work.pageSize work.page e.codec.config rows data pagination := by
  obtain ⟨outcome, token, houtcome, htoken, rfl, rfl⟩ := Engine.delivered?_step_executed.mp h
  cases houtcome
  constructor
  case delivers =>
    rw [Nat.min_comm, ← List.take_eq_take_min]
    rfl
  case currentPage => rfl
  case hasMore => exact CompiledQuery.pageOutcome_hasMore_iff work.query work.cursor work.page hrows
  case queryToken =>
    rw [Engine.isSome_of_nextToken? htoken]
    exact CompiledQuery.isSome_pageOutcome_next hsize hrows
  case continues =>
    rintro token' rfl
    rw [QueryData.records_ofOperation]
    exact exists_continuation_of_nextToken? htoken

/-- There is an answer for the outcome of some rows just where the token for the next page, if they
call for one, can be made. -/
theorem isSome_delivered?_iff (hsize : 1 ≤ work.pageSize.toNat)
    (hrows : rows.length ≤ work.pageSize.toNat + 1) :
    (e.step a (.executed work (.ok
        (work.query.pageOutcome work.pageSize work.cursor work.page rows)))).2.delivered?.isSome = true ↔
      (rows.length = work.pageSize.toNat + 1 →
        (e.overflow = .stops → work.page.toNat + 1 < pow2 32) ∧
          Time.Timestamp.IsOnCalendar (a.mintedAt + e.codec.config.ttl.toInt)) := by
  rw [← CompiledQuery.isSome_pageOutcome_next hsize hrows, ← Engine.exists_nextToken?_iff,
    Option.isSome_iff_exists, Prod.exists]
  simp only [Engine.delivered?_step_executed]
  constructor
  · rintro ⟨data, pagination, outcome, token, houtcome, htoken, -, -⟩
    cases houtcome
    exact ⟨token, htoken⟩
  · rintro ⟨token, htoken⟩
    exact ⟨_, _, _, token, rfl, htoken, rfl, rfl⟩

end PageWork

/-- The work while its statement is run. -/
def PageWork.executing (work : PageWork) : PageWork :=
  { work with request := work.request.advance .executing }

/-- A page is executed for the rows that its statement brings. -/
theorem Engine.step_ready_of_rows (e : Engine) {a : Ambient} {work : PageWork}
    {statement : Statement Param} {rows : List Row}
    (hstatement : work.query.page? work.pageSize work.cursor = some statement)
    (hrows : a.backend statement work.query.columns = .ok rows) :
    (e.step a (.ready work)).2 = .executed work.executing (.ok (work.executing.query.pageOutcome
      work.executing.pageSize work.executing.cursor work.executing.page rows)) :=
  congrArg (Stage.executed work.executing)
    (CompiledQuery.executePage_eq_ok_iff.mpr ⟨statement, rows, hstatement, hrows, rfl⟩)

/-- Whatever requests an engine serves besides: the answer to a page, if it is a success, fits the rows
that the backend brought for the page, of which there is at most one more than the page holds. Where the
backend brings rows there is such an answer unless there is one more and the expiry of the token is not
on the calendar or, in a build that checks, the page has the greatest number. -/
theorem Engine.answer_fits_token (e e' : Engine) (a a' : Ambient) {work : PageWork}
    (haccepts : work.query.accepts work.cursor = true) (hsize : 1 ≤ work.pageSize.toNat)
    (hwindow : work.query.KeepsWindow a.backend work.pageSize work.cursor) :
    let answer := (e'.step a' (e.step a (.ready work)).2).2.delivered?
    ∃ statement, work.query.page? work.pageSize work.cursor = some statement ∧
      (∀ data pagination, answer = some (data, pagination) →
        ∃ rows, a.backend statement work.query.columns = .ok rows ∧
          work.query.IsAnsweredBy work.pageSize work.page e'.codec.config rows data pagination) ∧
      ∀ rows, a.backend statement work.query.columns = .ok rows →
        (answer.isSome = true ↔ (rows.length = work.pageSize.toNat + 1 →
          (e'.overflow = .stops → work.page.toNat + 1 < pow2 32) ∧
            Time.Timestamp.IsOnCalendar (a'.mintedAt + e'.codec.config.ttl.toInt))) := by
  intro answer
  have hholds : 1 ≤ work.executing.pageSize.toNat := hsize
  obtain ⟨statement, hstatement⟩ :
      ∃ statement, work.query.page? work.pageSize work.cursor = some statement :=
    CompiledQuery.page?_isSome haccepts
  refine ⟨statement, hstatement, fun data pagination hdelivered => ?_, fun rows hrows => ?_⟩
  · obtain ⟨outcome, -, houtcome, -⟩ := delivered?_step_executed.mp hdelivered
    obtain ⟨statement', rows, hstatement', hrows, -⟩ :=
      CompiledQuery.executePage_eq_ok_iff.mp houtcome
    cases hstatement.symm.trans hstatement'
    simp only [answer, e.step_ready_of_rows hstatement hrows] at hdelivered
    exact ⟨rows, hrows, PageWork.isAnsweredBy_of_delivered? hholds
      (hwindow _ _ hstatement hrows) hdelivered⟩
  · simp only [answer, e.step_ready_of_rows hstatement hrows]
    exact PageWork.isSome_delivered?_iff hholds (hwindow _ _ hstatement hrows)

namespace NumberedBooks

def work : PageWork where
  request := .receive "r"
  query := (checked "id").compile 1
  pageSize := 2
  cursor := .start
  page := 1
  claimed := none

def reading : Ambient := { ReloadedBooks.ambient with backend := (storeAt 1).fetch 0 5000 }

theorem exists_rows : ∃ statement rows, work.query.page? work.pageSize work.cursor = some statement ∧
    reading.backend statement work.query.columns = .ok rows ∧ rows.length = 3 ∧
      rows.take 2 = [[("id", .int 1)], [("id", .int 2)]] := by
  obtain ⟨statement, rows, hstatement, hrows, houtcome⟩ :=
    CompiledQuery.executePage_eq_ok_iff.mp executePage_first
  have hmore : decide (2 < rows.length) = true := congrArg PageOutcome.hasMore houtcome
  have hle : rows.length ≤ 3 :=
    (storeAt 1).fetch_keepsWindow 0 5000 _ work.pageSize work.cursor statement rows hstatement hrows
  rw [decide_eq_true_iff] at hmore
  exact ⟨statement, rows, hstatement, hrows, by omega, congrArg PageOutcome.records houtcome⟩

/-- The first two books are delivered, and the third shows in a token for after the second one. -/
theorem token_after_second :
    let engine := ReloadedBooks.engine
    ∃ data pagination claims, (engine.step reading (engine.step reading (.ready work)).2).2.delivered? =
        some (data, pagination) ∧
      data.records = [[("id", .int 1)], [("id", .int 2)]] ∧ pagination.hasMore = true ∧
      pagination.queryToken = some (engine.codec.config.sign claims) ∧
      claims.cursor = .keyset [.integer 2] ∧ claims.page = 2 := by
  intro engine
  have hwindow : work.query.KeepsWindow reading.backend work.pageSize work.cursor :=
    (storeAt 1).fetch_keepsWindow 0 5000 _ _ _
  obtain ⟨statement, hstatement, hfits, hexists⟩ :=
    @Engine.answer_fits_token engine engine reading reading work rfl (by decide) hwindow
  obtain ⟨statement', rows, hstatement', hrows, hlength, hrecords⟩ := exists_rows
  cases hstatement.symm.trans hstatement'
  have hanswered := (hexists rows hrows).mpr fun _ => by decide +kernel
  obtain ⟨⟨data, pagination⟩, hanswer⟩ := Option.isSome_iff_exists.mp hanswered
  obtain ⟨rows', hrows', hdelivers, -, hhasMore, htoken, hcontinues⟩ := hfits data pagination hanswer
  cases hrows.symm.trans hrows'
  obtain ⟨token, hsome⟩ := Option.isSome_iff_exists.mp (htoken.mpr hlength)
  obtain ⟨claims, last, rfl, hlast, hnext⟩ := hcontinues token hsome
  have hdata : data.records = [[("id", .int 1)], [("id", .int 2)]] := by
    rw [hdelivers, QueryData.records_ofOperation, hlength]
    exact hrecords
  rw [hdata] at hlast
  cases hlast
  exact ⟨data, pagination, claims, hanswer, hdata, hhasMore.mpr hlength, hsome, hnext.cursor,
    UInt32.toNat_inj.mp hnext.page⟩

/-- The page with the greatest number, as a token may ask for it. -/
def lastWork : PageWork := { work with page := 4294967295 }

/-- The stage that an engine of a build brings the page to. -/
def lastStage (o : Overflow) : Stage :=
  let engine : Engine := { ReloadedBooks.engine with overflow := o }
  (engine.step reading (engine.step reading (.ready lastWork)).2).2

/-- For the page after the one with the greatest number, a build that does not check makes a token of
page zero, and one that checks has no answer. -/
theorem page_after_last :
    (∃ data pagination claims, (lastStage .wraps).delivered? = some (data, pagination) ∧
      pagination.currentPage = 4294967295 ∧
      pagination.queryToken = some (ReloadedBooks.engine.codec.config.sign claims) ∧
      claims.page = 0) ∧ (lastStage .stops).delivered? = none := by
  obtain ⟨statement, rows, hstatement, hrows, hlength, -⟩ := exists_rows
  let executing := lastWork.executing
  have hstage (o : Overflow) : lastStage o =
      (Engine.step { ReloadedBooks.engine with overflow := o } reading (.executed executing
        (.ok (executing.query.pageOutcome executing.pageSize executing.cursor executing.page
          rows)))).2 :=
    congrArg (fun stage => (Engine.step _ reading stage).2)
      (@Engine.step_ready_of_rows _ reading lastWork statement rows hstatement hrows)
  have hsize : 1 ≤ executing.pageSize.toNat := by decide
  have hwindow : rows.length ≤ executing.pageSize.toNat + 1 := by
    rw [hlength]
    decide
  have hanswered (o : Overflow) := @PageWork.isSome_delivered?_iff executing
    { ReloadedBooks.engine with overflow := o } reading rows hsize hwindow
  constructor
  · have hsome := (hanswered .wraps).mpr fun _ => by decide +kernel
    rw [← hstage, Option.isSome_iff_exists] at hsome
    obtain ⟨⟨data, pagination⟩, hdelivered⟩ := hsome
    have hfits := PageWork.isAnsweredBy_of_delivered? hsize hwindow (hstage .wraps ▸ hdelivered)
    obtain ⟨token, htoken⟩ := Option.isSome_iff_exists.mp (hfits.queryToken.mpr hlength)
    obtain ⟨claims, last, rfl, -, hnext⟩ := hfits.continues token htoken
    have hwrapped : (executing.page.toNat + 1) % pow2 32 = UInt32.toNat 0 := by decide
    exact ⟨data, pagination, claims, hdelivered, hfits.currentPage, htoken,
      UInt32.toNat_inj.mp (hnext.page.trans hwrapped)⟩
  · rw [← Option.not_isSome_iff_eq_none, hstage, hanswered]
    intro hmade
    exact absurd ((hmade hlength).1 rfl) (by decide)

end NumberedBooks

end CatalogQuery
