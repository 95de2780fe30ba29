import CatalogQuery.Proofs.AcceptedRange
import CatalogQuery.Proofs.PlaceholderOrder
/-!
# The values that queries bind

Which values the statement of a plan and the statements of its pages bind, and in which clauses: those
of the filters in the order of the plan, both bounds of the time range, those of the cursor branch by
branch, the window. None of them is null: a null in a cursor changes the text and binds nothing.
-/
namespace CatalogQuery

/-- The values that a predicate binds, from left to right. -/
def Predicate.params : Predicate → List Param
  | .compare _ v => [.ofScalar v]
  | .isIn vs => vs.map .ofScalar
  | .like text => [.text (likePattern text)]
  | .between low high => [.ofScalar low, .ofScalar high]

def CheckedRange.params (r : CheckedRange) : List Param := [.text r.start.text, .text r.finish.text]

/-- The values that the branch for a key binds, given the cursor's values of the keys before it: all
of these and its own, without nulls. There is no branch for what comes after a null in descending
order. -/
def OrderKey.params (k : OrderKey) (earlier : List Param) (v : Param) : List Param :=
  if v = .null ∧ k.direction = .desc then [] else (earlier ++ [v]).filter (· ≠ .null)

/-- The values that a keyset predicate binds, branch by branch. -/
def keysetParams (earlier : List Param) : List (OrderKey × Param) → List Param
  | [] => []
  | (k, v) :: rest => k.params earlier v ++ keysetParams (earlier ++ [v]) rest

theorem Scalar.ofScalar_ne_null (v : Scalar) : Param.ofScalar v ≠ .null := by
  cases v <;> exact Param.noConfusion

theorem Predicate.null_notMem_params (p : Predicate) : .null ∉ p.params := by
  have hscalar (v : Scalar) : Param.null ≠ .ofScalar v := (Scalar.ofScalar_ne_null v).symm
  cases p with
  | compare op v => simp [params, hscalar]
  | isIn vs => simp [params, Scalar.ofScalar_ne_null]
  | like text => simp [params]
  | between low high => simp [params, hscalar]

theorem CheckedPlan.values_filterCondition (f : CheckedFilter) :
    (filterCondition f).values = f.predicate.params := by
  rw [filterCondition]
  cases f.predicate <;> rfl

theorem OrderKey.values_tied (k : OrderKey) (v : Param) :
    (k.tied v).values = [v].filter (· ≠ .null) := by
  by_cases hv : v = .null
  · rw [hv]
    rfl
  · rw [tied_of_ne_null hv]
    simp [KeyTest.values, hv]

/-- A branch binds what the ties before it bind, and what comes after the value of its key. -/
theorem OrderKey.values_branch (k : OrderKey) {ties : List (KeyTest Param)} {earlier : List Param}
    (hties : ties.flatMap KeyTest.values = earlier.filter (· ≠ .null)) (v : Param) :
    ((k.after v).toList.map fun test => ties ++ [test]).flatMap (fun branch =>
      branch.flatMap KeyTest.values) = k.params earlier v := by
  by_cases hv : v = .null
  · subst hv
    cases hdirection : k.direction with
    | asc => simp [after, hdirection, params, hties, KeyTest.values]
    | desc => simp [after, hdirection, params]
  · have hvalues : ((k.after v).toList.map KeyTest.values).flatten = [v] := by
      rw [after_of_ne_null hv]
      cases k.direction with
      | asc => rfl
      | desc => cases k.nullable <;> rfl
    rw [after_of_ne_null hv] at hvalues ⊢
    simpa [params, hv, hties] using hvalues

theorem values_keysetBranches {ties : List (KeyTest Param)} {earlier : List Param}
    (hties : ties.flatMap KeyTest.values = earlier.filter (· ≠ .null))
    (kvs : List (OrderKey × Param)) :
    (keysetBranches ties kvs).flatMap (fun branch => branch.flatMap KeyTest.values) =
      keysetParams earlier kvs := by
  induction kvs generalizing ties earlier with
  | nil => rfl
  | cons kv kvs ih =>
    obtain ⟨k, v⟩ := kv
    have htied : (ties ++ [k.tied v]).flatMap KeyTest.values =
        (earlier ++ [v]).filter (· ≠ .null) := by
      rw [List.flatMap_append, List.flatMap_singleton, hties, k.values_tied, List.filter_append]
    rw [keysetBranches_cons, List.flatMap_append, k.values_branch hties, ih htied, keysetParams]

theorem null_notMem_keysetParams (earlier : List Param) (kvs : List (OrderKey × Param)) :
    .null ∉ keysetParams earlier kvs := by
  induction kvs generalizing earlier with
  | nil => exact List.not_mem_nil
  | cons kv kvs ih =>
    obtain ⟨k, v⟩ := kv
    rw [keysetParams, List.mem_append, OrderKey.params]
    rintro (h | h)
    · split at h
      · cases h
      · simp at h
    · exact ih _ h

/-- The statement binds just these values, in these clauses from left to right, and no null. -/
structure Statement.Binds (s : Statement Param) (clauses : List (Clause Param))
    (values : List Param) : Prop where
  aligned : s.IsAligned
  read : Statement.ofText? s.text s.values = some s
  clauses_eq : s.clauses = clauses
  values_eq : s.values = values
  not_null : .null ∉ values

namespace CheckedPlan

/-- The conditions of a plan: those of its filters in their order, and those of its time range. -/
def boundClauses (p : CheckedPlan) : List (Clause Param) :=
  p.filters.map (fun f => .condition (filterCondition f)) ++ p.rangeConditions.map .condition

def boundValues (p : CheckedPlan) : List Param :=
  p.filters.flatMap (fun f => f.predicate.params) ++ p.timeRange.elim [] CheckedRange.params

end CheckedPlan

/-- The clauses in which a page of a query binds the values of its cursor and its window. -/
def CompiledQuery.pageClauses (q : CompiledQuery) (pageSize : UInt32) : Cursor → List (Clause Param)
  | .start => [.limit (.integer (.ofInt (pageSize.toNat + 1)))]
  | .keyset values =>
    (keysetBranches [] (q.orderBy.zip values)).flatMap (fun branch => branch.map .test) ++
      [.limit (.integer (.ofInt (pageSize.toNat + 1)))]
  | .offset rows =>
    [.limit (.integer (.ofInt (pageSize.toNat + 1))),
      .offset (.integer (.ofInt (min rows.toNat maxOffset)))]

def CompiledQuery.pageValues (q : CompiledQuery) (pageSize : UInt32) : Cursor → List Param
  | .start => [.integer (.ofInt (pageSize.toNat + 1))]
  | .keyset values =>
    keysetParams [] (q.orderBy.zip values) ++ [.integer (.ofInt (pageSize.toNat + 1))]
  | .offset rows =>
    [.integer (.ofInt (pageSize.toNat + 1)), .integer (.ofInt (min rows.toNat maxOffset))]

namespace CheckedPlan

variable (p : CheckedPlan) (generation : UInt64)

theorem clauses_base : (p.compile generation).base.clauses = p.boundClauses := by
  show (p.filters.map filterCondition ++ p.rangeConditions).map Clause.condition ++ [] ++ [] ++ [] = _
  rw [List.append_nil, List.append_nil, List.append_nil, List.map_append, List.map_map]
  rfl

theorem values_base (h : p.timeRange.isSome = true → p.entity.timeField.isSome = true) :
    (p.compile generation).base.values = p.boundValues := by
  have hrange : p.rangeConditions.flatMap Condition.values =
      p.timeRange.elim [] CheckedRange.params := by
    cases hr : p.timeRange with
    | none => rw [rangeConditions_none hr]; rfl
    | some range =>
      obtain ⟨f, hf⟩ := Option.isSome_iff_exists.mp (h (by rw [hr]; rfl))
      rw [rangeConditions_some hr hf]
      rfl
  have hfilters : (p.filters.map filterCondition).flatMap Condition.values =
      p.filters.flatMap fun f => f.predicate.params := by
    rw [List.flatMap_map]
    exact List.flatMap_congr fun f _ => values_filterCondition f
  show (p.filters.map filterCondition ++ p.rangeConditions).flatMap Condition.values ++ [] ++ [] ++ [] = _
  rw [List.append_nil, List.append_nil, List.append_nil, List.flatMap_append, hrange, hfilters]
  rfl

theorem null_notMem_boundValues : .null ∉ p.boundValues := by
  rw [boundValues, List.mem_append, List.mem_flatMap]
  rintro (⟨f, -, h⟩ | h)
  · exact f.predicate.null_notMem_params h
  · cases hr : p.timeRange with
    | none => rw [hr] at h; cases h
    | some range => rw [hr] at h; simp [CheckedRange.params] at h

end CheckedPlan

namespace CompiledQuery

variable {q : CompiledQuery} {pageSize : UInt32} {cursor : Cursor} {s : Statement Param}

/-- A query that is not cut to a window yet. -/
structure IsWhole (q : CompiledQuery) : Prop where
  keyset : q.base.keyset = none
  limit : q.base.limit = none
  offset : q.base.offset = none

theorem isWhole_compile (p : CheckedPlan) (generation : UInt64) : (p.compile generation).IsWhole :=
  ⟨rfl, rfl, rfl⟩

/-- A page binds what the query binds, and then the values of the cursor and of the window. -/
theorem clauses_page? (hq : q.IsWhole) (h : q.page? pageSize cursor = some s) :
    s.clauses = q.base.clauses ++ q.pageClauses pageSize cursor := by
  rw [page?] at h
  split at h
  next =>
    simp only [Statement.clauses, hq.keyset, hq.limit, hq.offset]
    cases cursor with
    | start | offset rows | keyset values =>
      cases h
      simp [hq.keyset, hq.offset, pageClauses, windowLimit, windowOffset]
  next => cases h

theorem pageClauses_values (q : CompiledQuery) (pageSize : UInt32) (cursor : Cursor) :
    (q.pageClauses pageSize cursor).flatMap Clause.values = q.pageValues pageSize cursor := by
  cases cursor with
  | start | offset rows => rfl
  | keyset values =>
    have htests (branch : List (KeyTest Param)) :
        (branch.map Clause.test).flatMap Clause.values = branch.flatMap KeyTest.values :=
      List.flatMap_map ..
    have hkeyset : (keysetBranches [] (q.orderBy.zip values)).flatMap
        (fun branch => branch.flatMap KeyTest.values) = keysetParams [] (q.orderBy.zip values) :=
      values_keysetBranches rfl _
    rw [pageClauses, pageValues, ← hkeyset, List.flatMap_append, List.flatMap_assoc]
    simp only [htests]
    rfl

theorem null_notMem_pageValues (q : CompiledQuery) (pageSize : UInt32) (cursor : Cursor) :
    .null ∉ q.pageValues pageSize cursor := by
  cases cursor with
  | start | offset rows => simp [pageValues]
  | keyset values =>
    rw [pageValues, List.mem_append]
    rintro (h | h)
    · exact null_notMem_keysetParams _ _ h
    · simp at h

end CompiledQuery

theorem Statement.IsPlain.binds {s : Statement Param} (hs : s.IsPlain)
    {clauses : List (Clause Param)} {values : List Param} (hclauses : s.clauses = clauses)
    (hvalues : s.values = values) (hnull : .null ∉ values) : s.Binds clauses values :=
  ⟨hs.isAligned, hs.ofText?_text, hclauses, hvalues, hnull⟩

namespace CheckedPlan

variable {source : String} {d : CatalogDefinition} {g : UInt64} {c : Catalog} {policy : LimitPolicy}
  {plan : Plan} {p : CheckedPlan}

/-- The query of an accepted plan binds the values of its filters in the order of the plan, and both
bounds of its time range. Its page at a cursor that it accepts binds these, the values of the cursor
branch by branch, one row more than the page holds and the rows to pass over. The placeholder at a
position is in the clause of the value at this position. -/
theorem placeholders_aligned (hc : Catalog.ofDefinition source d g = .ok c)
    (hp : plan.check c policy = .ok p) (generation : UInt64) :
    (p.compile generation).base.Binds p.boundClauses p.boundValues ∧
      ∀ (pageSize : UInt32) (cursor : Cursor), (p.compile generation).accepts cursor = true →
        ∃ s, (p.compile generation).page? pageSize cursor = some s ∧
          s.Binds (p.boundClauses ++ (p.compile generation).pageClauses pageSize cursor)
            (p.boundValues ++ (p.compile generation).pageValues pageSize cursor) := by
  have haccepted := (Plan.isAccepted_of_check hc hp).1
  have hplain := haccepted.base_isPlain generation
  have hrange : p.timeRange.isSome = true → p.entity.timeField.isSome = true := by
    intro hsome
    obtain ⟨range, hr⟩ := Option.isSome_iff_exists.mp hsome
    exact (Plan.isAccepted_of_timeRange hp hr).timeField
  have hclauses := p.clauses_base generation
  have hvalues := p.values_base generation hrange
  refine ⟨hplain.binds hclauses hvalues p.null_notMem_boundValues, fun pageSize cursor haccepts => ?_⟩
  obtain ⟨s, hs⟩ : ∃ s, (p.compile generation).page? pageSize cursor = some s :=
    CompiledQuery.page?_isSome haccepts
  have hpage := CompiledQuery.isPlain_of_page? hplain (haccepted.orderBy_plain generation) hs
  have hpageClauses := CompiledQuery.clauses_page? (CompiledQuery.isWhole_compile p generation) hs
  rw [hclauses] at hpageClauses
  refine ⟨s, hs, hpage.binds hpageClauses ?_ ?_⟩
  · rw [s.values_eq_flatMap_clauses, hpageClauses, List.flatMap_append,
      CompiledQuery.pageClauses_values, ← hvalues, ← hclauses,
      Statement.values_eq_flatMap_clauses]
  · rw [List.mem_append]
    rintro (h | h)
    · exact p.null_notMem_boundValues h
    · exact CompiledQuery.null_notMem_pageValues _ _ _ h

end CheckedPlan

namespace DatedBooks

def definition : CatalogDefinition where
  entities :=
    [{ name := "Book", table := "book", timeField := some "at",
       fields :=
        [{ name := "id", column := "id", kind := .number, unique := true },
         { name := "title", column := "title", kind := .string },
         { name := "at", column := "at", kind := .timestamp }] }]

def entity : Entity where
  id := 0
  name := "Book"
  table := "book"
  fields :=
    [{ id := 0, name := "id", column := "id", kind := .number,
       operators := ValueKind.number.defaultOperators, unique := true, nullable := false },
     { id := 1, name := "title", column := "title", kind := .string,
       operators := ValueKind.string.defaultOperators, unique := false, nullable := true },
     { id := 2, name := "at", column := "at", kind := .timestamp,
       operators := ValueKind.timestamp.defaultOperators, unique := false, nullable := true }]
  requiresTimeRange := false
  timeFieldId := some 2

def catalog : Catalog where
  generation := 1
  entities := [entity]

theorem ofDefinition_definition : Catalog.ofDefinition "books" definition 1 = .ok catalog := by
  decide

/-- The books of one day with one of two titles, the last titles first. -/
def plan : Plan :=
  ((((Plan.list "Book").addFilter "title" "in" (.arr [.str "?", .str "Emma"])).withTimeRange
    "2024-05-01" "2024-05-02").addOrder "title" "desc").addOrder "id" "asc"

def checked : CheckedPlan where
  entity := entity
  operation := .list
  filters := [⟨entity.fields[1], .isIn [.text "?", .text "Emma"]⟩]
  orderBy := [⟨.field entity.fields[1], .desc⟩, ⟨.field entity.fields[0], .asc⟩]
  groupBy := []
  aggregations := []
  timeRange := some ⟨⟨1714521600, 0⟩, ⟨1714608000, 0⟩⟩
  limit := 100
  requestId := none

theorem check_plan : plan.check catalog {} = .ok checked := by decide +kernel

/-- Behind a book without a title comes a book without a title and with a greater number: the null binds
nothing, and the branch for the title is missing. -/
theorem binds_afterUntitled :
    ∃ s, (checked.compile 1).page? 2 (.keyset [.null, .integer 7]) = some s ∧
      s.Binds
        (checked.boundClauses ++
          [.test (.isNull (.column "title")), .test (.above (.column "id") (.integer 7)),
            .limit (.integer 3)])
        [.text "?", .text "Emma", .text "2024-05-01 00:00:00", .text "2024-05-02 00:00:00",
          .integer 7, .integer 3] := by
  have hvalues : checked.boundValues = [.text "?", .text "Emma", .text "2024-05-01 00:00:00",
      .text "2024-05-02 00:00:00"] := by decide +kernel
  have haligned := (CheckedPlan.placeholders_aligned ofDefinition_definition check_plan 1).2 2
    (.keyset [.null, .integer 7]) rfl
  rw [hvalues] at haligned
  exact haligned

end DatedBooks

end CatalogQuery
