import CatalogQuery.Number.Overflow
import CatalogQuery.Report.Failure
import CatalogQuery.Store.Basic
/-!
# Executing a page

One page of a compiled query: the statement for it asks for one row more than the page holds. The
extra row is not delivered; it says that there is another page, which begins after the last row that
is delivered.
-/
namespace CatalogQuery

/-- The number of the page after one. The greatest number of thirty-two bits has none after it, and zero
follows where numbers wrap. -/
def nextPage? (o : Overflow) (page : UInt32) : Option UInt32 :=
  o.result? (page.toNat + 1 < pow2 32) (page + 1)

theorem nextPage?_eq_some_iff {o : Overflow} {page number : UInt32} :
    nextPage? o page = some number ↔
      (o = .stops → page.toNat + 1 < pow2 32) ∧ page + 1 = number := by
  rw [nextPage?, Overflow.result?_eq_some_iff, decide_eq_true_iff]

structure PageOutcome where
  records : List Row
  hasMore : Bool
  /-- Where the next page begins. -/
  next : Option Cursor
  mode : CursorMode
  deriving Repr, BEq

namespace CompiledQuery

def pageOutcome (q : CompiledQuery) (pageSize : UInt32) (cursor : Cursor) (page : UInt32)
    (rows : List Row) : PageOutcome :=
  let records := rows.take pageSize.toNat
  let hasMore := pageSize.toNat < rows.length
  { records, hasMore,
    next := if hasMore then records.getLast?.map (Cursor.after q · pageSize page) else none,
    mode := cursor.mode q }

def executePage (q : CompiledQuery) (backend : Backend) (pageSize : UInt32) (cursor : Cursor)
    (page : UInt32) : Except PageError PageOutcome :=
  match q.page? pageSize cursor with
  | none => .error (.cursor .staleQuery)
  | some statement =>
    match backend statement q.columns with
    | .error e => .error (.execution e)
    | .ok rows => .ok (q.pageOutcome pageSize cursor page rows)

@[simp] theorem pageOutcome_records (q : CompiledQuery) (pageSize page : UInt32) (cursor : Cursor)
    (rows : List Row) :
    (q.pageOutcome pageSize cursor page rows).records = rows.take pageSize.toNat := rfl

/-- A page has an outcome just where its statement brings rows. -/
theorem executePage_eq_ok_iff {q : CompiledQuery} {backend : Backend} {pageSize page : UInt32}
    {cursor : Cursor} {outcome : PageOutcome} :
    q.executePage backend pageSize cursor page = .ok outcome ↔
      ∃ statement rows, q.page? pageSize cursor = some statement ∧
        backend statement q.columns = .ok rows ∧
        q.pageOutcome pageSize cursor page rows = outcome := by
  rw [executePage]
  cases q.page? pageSize cursor with
  | none => simp
  | some statement =>
    cases hrows : backend statement q.columns with
    | error e => simp [hrows]
    | ok rows => simp [hrows]

end CompiledQuery

end CatalogQuery
