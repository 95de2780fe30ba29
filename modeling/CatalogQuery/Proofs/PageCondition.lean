import CatalogQuery.Proofs.BoundValues
import CatalogQuery.Proofs.FormulaReading
import CatalogQuery.Proofs.KeysetPage
/-!
# The condition of a page

The text of a keyset predicate, read as a formula, is true on just the rows that come after the
cursor, and the condition of a page on just the rows of the query among them. On a row that is tied
with the cursor or comes before it the formula is false or unknown.
-/
namespace CatalogQuery

namespace Formula

/-- The truth of a formula on a row. A value is taken as one of the column it is compared with, a
pattern as it is. -/
def truth (t : Table) (row : StoredRow) : Formula Param → Truth
  | .constant b => some b
  | .isNull key => some (t.termValue row key).isNull
  | .isNotNull key => some (!(t.termValue row key).isNull)
  | .compare key op v => (t.termValue row key).compareBy op (t.keyCell key v)
  | .isIn key vs =>
    Truth.any (vs.map fun v => (t.termValue row key).compareBy .eq (t.keyCell key v))
  | .like key pattern => (t.termValue row key).like? (.ofParam pattern)
  | .between key low high =>
    ((t.termValue row key).compareBy .gte (t.keyCell key low)).and
      ((t.termValue row key).compareBy .lte (t.keyCell key high))
  | .and f g => (f.truth t row).and (g.truth t row)
  | .or f g => (f.truth t row).or (g.truth t row)

variable {t : Table} {row : StoredRow}

theorem truth_foldl_and (f : Formula Param) (fs : List (Formula Param)) :
    (fs.foldl .and f).truth t row = some true ↔
      f.truth t row = some true ∧ ∀ g ∈ fs, g.truth t row = some true := by
  induction fs generalizing f with
  | nil => simp
  | cons g fs ih =>
    rw [List.foldl_cons, ih, truth, Truth.and_eq_true, List.forall_mem_cons, and_assoc]

theorem truth_foldl_or (f : Formula Param) (fs : List (Formula Param)) :
    (fs.foldl .or f).truth t row = some true ↔
      f.truth t row = some true ∨ ∃ g ∈ fs, g.truth t row = some true := by
  induction fs generalizing f with
  | nil => simp
  | cons g fs ih =>
    rw [List.foldl_cons, ih, truth, Truth.or_eq_true, List.exists_mem_cons_iff, or_assoc]

theorem truth_conjunction (fs : List (Formula Param)) :
    (conjunction fs).truth t row = some true ↔ ∀ f ∈ fs, f.truth t row = some true := by
  cases fs with
  | nil => simp [conjunction, truth]
  | cons f fs => rw [conjunction, truth_foldl_and, List.forall_mem_cons]

theorem truth_disjunction (fs : List (Formula Param)) :
    (disjunction fs).truth t row = some true ↔ ∃ f ∈ fs, f.truth t row = some true := by
  cases fs with
  | nil => simp [disjunction, truth]
  | cons f fs => rw [disjunction, truth_foldl_or, List.exists_mem_cons_iff]

end Formula

theorem Condition.truth_formula (c : Condition Param) (t : Table) (row : StoredRow) :
    c.formula.truth t row =
      ((c.map Cell.ofParam).suitedTo (t.affinity c.column)).truth (t.value row) := by
  cases c with
  | isIn column vs =>
    show Truth.any (vs.map _) = Truth.any (((vs.map _).map _).map _)
    rw [List.map_map, List.map_map]
    rfl
  | compare | like | between => rfl

theorem KeyTest.truth_formula (k : KeyTest Param) (t : Table) (row : StoredRow) :
    k.formula.truth t row = OrderKey.testTruth t.keyCell (t.termValue row) k := by
  cases k <;> rfl

theorem truth_keysetFormula (branches : List (List (KeyTest Param))) (t : Table) (row : StoredRow) :
    (keysetFormula branches).truth t row = some true ↔
      keysetTruth (t.termValue row) (branches.map fun branch =>
        branch.map fun test => test.map (t.keyCell test.key)) = some true := by
  rw [keysetFormula, Formula.truth_disjunction, keysetTruth, Truth.any_eq_true]
  simp only [List.mem_map, exists_exists_and_eq_and, branchFormula, Formula.truth_conjunction,
    Truth.all_eq_true, forall_exists_index, and_imp, forall_apply_eq_imp_iff₂,
    KeyTest.truth_formula, OrderKey.testTruth]

theorem Affinity.isNull_apply (a : Affinity) (c : Cell) : (a.apply c).isNull = c.isNull := by
  cases a with
  | plain => rfl
  | text => cases c <;> rfl
  | number =>
    cases c with
    | null | integer | real | blob => rfl
    | text s =>
      unfold apply Cell.asNumber
      dsimp only
      split
      next => rfl
      next => split <;> rfl

theorem Cell.isNull_ofParam {v : Param} (hv : ∀ x, v = .real x → x.isNaN = false) :
    (Cell.ofParam v).isNull = true ↔ v = .null := by
  cases v with
  | real x => simp [ofParam, hv x rfl, isNull]
  | null => simp [ofParam, isNull]
  | text | integer | bool => simp [ofParam, isNull]

namespace CompiledQuery

variable (q : CompiledQuery)

/-- Where the keys of a row stand after the values of a cursor in the order of the query. Each value is
taken as the column of its key takes it, and as it is where the column is plain. -/
def cursorOrder (values : List Param) (t : Table) (row : StoredRow) : Ordering :=
  Statement.orderCells (q.orderBy.map (·.direction))
    ((q.orderBy.zip values).map fun kv => t.keyCell kv.1.term kv.2)
    (q.orderBy.map fun k => t.termValue row k.term)

/-- The branches of the predicate for the rows after a cursor. -/
def branches (values : List Param) : List (List (KeyTest Param)) :=
  keysetBranches [] (q.orderBy.zip values)

variable {q} {values : List Param}

theorem keysetTruth_branches (hlength : values.length = q.orderBy.length)
    (hreals : ∀ x, Param.real x ∈ values → x.isNaN = false) {t : Table} {row : StoredRow}
    (hrow : ∀ k ∈ q.orderBy, k.nullable = false → (t.termValue row k.term).isNull = false) :
    (keysetFormula (q.branches values)).truth t row = some true ↔
      q.cursorOrder values t row = .lt := by
  have hfirst : (q.orderBy.zip values).map Prod.fst = q.orderBy :=
    List.map_fst_zip (Nat.le_of_eq hlength.symm)
  have hdirections : (q.orderBy.zip values).map (·.1.direction) = q.orderBy.map (·.direction) := by
    conv_rhs => rw [← hfirst, List.map_map]
    rfl
  have hvalues : (q.orderBy.zip values).map (fun kv => t.termValue row kv.1.term) =
      q.orderBy.map fun k => t.termValue row k.term := by
    conv_rhs => rw [← hfirst, List.map_map]
    rfl
  rw [truth_keysetFormula, branches, keysetTruth_iff, hdirections, hvalues, cursorOrder]
  · intro kv hkv
    rw [Table.keyCell, Affinity.isNull_apply, Cell.isNull_ofParam]
    rintro x hx
    exact hreals x (hx ▸ (List.of_mem_zip hkv).2)
  · intro kv hkv
    exact hrow kv.1 (List.of_mem_zip hkv).1

/-- The page after a cursor has the conditions of the query and then the predicate. -/
theorem page?_keyset {pageSize : UInt32} {s : Statement Param}
    (h : q.page? pageSize (.keyset values) = some s) :
    values.length = q.orderBy.length ∧ s.conditions = q.base.conditions ∧
      s.keyset = some (q.branches values) := by
  rw [page?] at h
  split at h
  next haccepts =>
    cases h
    exact ⟨(accepts_keyset_iff.mp haccepts).2, rfl, rfl⟩
  next => cases h

end CompiledQuery

namespace Statement

variable {s : Statement Param}

def conditionFormula (s : Statement Param) : Formula Param :=
  .conjunction (s.members.map (Sum.elim Condition.formula keysetFormula))

theorem truth_conditionFormula {t : Table} {row : StoredRow}
    {branches : List (List (KeyTest Param))} (hkeyset : s.keyset = some branches) :
    s.conditionFormula.truth t row = some true ↔
      s.conditionsHold t row ∧ (keysetFormula branches).truth t row = some true := by
  rw [conditionFormula, Formula.truth_conjunction, members, hkeyset]
  simp only [Option.map_some, Option.toList_some, List.map_append, List.map_map, List.map_cons,
    List.map_nil, List.forall_mem_append, List.forall_mem_singleton, List.forall_mem_map,
    Function.comp_apply, Sum.elim_inl, Sum.elim_inr, Condition.truth_formula]
  rfl

/-- The text of the WHERE clause is read as the conditions and the keyset predicate. -/
theorem ofText?_whereTexts (hne : s.members ≠ [])
    (hconditions : ∀ c ∈ s.conditions, Text.isIdentifier c.column = true)
    (hkeys : ∀ branch ∈ s.keyset.getD [], ∀ k ∈ branch, Text.isIdentifier k.key.name = true)
    (hbranches : ∀ branch ∈ s.keyset.getD [], branch ≠ []) :
    Formula.ofText? (joinWith " AND " s.whereTexts) s.whereValues = some s.conditionFormula := by
  have hoperands : ∀ m ∈ s.members, IsOperand (m.elim Condition.tokens keysetTokens)
      (m.elim Condition.formula keysetFormula) := by
    intro m hm
    rcases mem_members.mp hm with ⟨c, hc, rfl⟩ | ⟨branches, hkeyset, rfl⟩
    · exact Condition.isOperand (hconditions c hc)
    · rw [hkeyset] at hkeys hbranches
      exact isOperand_keysetTokens hbranches hkeys
  rw [whereTexts_eq]
  refine (IsFormula.conjunction hoperands hne).ofText?
    (Spells.joinWith (.word "AND") standsApart_and (spells_members hconditions hkeys)) ?_
  rw [tokenValues_joinTokens rfl]
  exact s.flatMap_whereTokens

end Statement

namespace CompiledQuery

variable {q : CompiledQuery} {values : List Param}

/-- The text of the predicate, with its values in the places of the placeholders, is a formula that
is true on just the rows that come strictly after the cursor. The condition of the page is a formula
that is true on just the rows of the query among them. -/
theorem page_formulas_truth_iff {pageSize : UInt32} {s : Statement Param}
    (hpage : q.page? pageSize (.keyset values) = some s) (hbase : q.base.keyset = none)
    (hcolumns : ∀ c ∈ q.base.conditions, Text.isIdentifier c.column = true)
    (hkeys : ∀ k ∈ q.orderBy, Text.isIdentifier k.term.name = true)
    (hreals : ∀ x, Param.real x ∈ values → x.isNaN = false) :
    ∃ keyset condition : Formula Param,
      Formula.ofText? (keysetText (q.branches values))
          ((q.branches values).flatMap fun branch => branch.flatMap KeyTest.values) = some keyset ∧
        Formula.ofText? (joinWith " AND " s.whereTexts) s.whereValues = some condition ∧
        ∀ (t : Table) (row : StoredRow),
          (∀ k ∈ q.orderBy, k.nullable = false → (t.termValue row k.term).isNull = false) →
            (keyset.truth t row = some true ↔ q.cursorOrder values t row = .lt) ∧
              (condition.truth t row = some true ↔
                ((q.base.map Cell.ofParam).suited t).truth t row = some true ∧
                  q.cursorOrder values t row = .lt) := by
  obtain ⟨hlength, hconditions, hkeyset⟩ := page?_keyset hpage
  have hnames : ∀ branch ∈ q.branches values, ∀ test ∈ branch,
      Text.isIdentifier test.key.name = true :=
    isIdentifier_key_keysetBranches fun kv hkv => hkeys kv.1 (List.of_mem_zip hkv).1
  have hne : ∀ branch ∈ q.branches values, branch ≠ [] := fun _ => ne_nil_of_mem_keysetBranches
  refine ⟨keysetFormula (q.branches values), s.conditionFormula, ?_, ?_, ?_⟩
  · exact (isOperand_keysetTokens hne hnames).isFormula.ofText? (spells_keysetText hnames)
      (tokenValues_keysetTokens _)
  · apply Statement.ofText?_whereTexts
    · simp [Statement.members, hkeyset]
    · rwa [hconditions]
    · rwa [hkeyset]
    · rwa [hkeyset]
  · intro t row hrow
    have hafter := keysetTruth_branches hlength hreals hrow
    refine ⟨hafter, ?_⟩
    have hrows : ((q.base.map Cell.ofParam).suited t).truth t row = some true ↔
        s.conditionsHold t row := by
      have hnone : (q.base.map Cell.ofParam).keyset = none := by rw [Statement.map, hbase]; rfl
      rw [Statement.truth_suited_iff, hnone, Statement.conditionsHold, Statement.conditionsHold,
        hconditions]
      simp
    rw [Statement.truth_conditionFormula hkeyset, hafter, hrows]

end CompiledQuery

namespace DatedBooks

def afterEmma : List Param := [.text "Emma", .integer 7]

def shelf : Table where
  name := "book"
  columns := ["id", "title", "at"]
  rows := []

/-- Titles come last to first: behind the book with the number seven comes one without a title, and
none with a later title. -/
theorem afterEmma_truth : ∃ keyset,
    Formula.ofText? "(((title < ? OR title IS NULL)) OR (title = ? AND id > ?))"
        [.text "Emma", .text "Emma", .integer 7] = some keyset ∧
      keyset.truth shelf ⟨1, [.integer 2, .null, .null]⟩ = some true ∧
      keyset.truth shelf ⟨2, [.integer 8, .text "Walden", .null]⟩ ≠ some true := by
  have hnames : ∀ k ∈ (checked.compile 1).orderBy, Text.isIdentifier k.term.name = true := by
    decide +kernel
  have hcolumns : ∀ c ∈ (checked.compile 1).base.conditions, Text.isIdentifier c.column = true := by
    decide +kernel
  have hpage : (checked.compile 1).page? 2 (.keyset afterEmma) = some _ := rfl
  obtain ⟨keyset, _, hread, -, htruth⟩ := CompiledQuery.page_formulas_truth_iff hpage rfl hcolumns
    hnames (by simp [afterEmma])
  refine ⟨keyset, hread, ?_, ?_⟩
  · have huntitled := htruth shelf ⟨1, [.integer 2, .null, .null]⟩ (by decide +kernel)
    exact huntitled.1.mpr (by decide +kernel)
  · have hwalden := htruth shelf ⟨2, [.integer 8, .text "Walden", .null]⟩ (by decide +kernel)
    exact mt hwalden.1.mp (by decide +kernel)

end DatedBooks

end CatalogQuery
