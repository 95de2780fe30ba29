import CatalogQuery.Proofs.CursorValue
import CatalogQuery.Proofs.KeysetPredicate
import Mathlib.Data.List.Pairwise
/-!
# Pages of a keyset

The rows that the statement of a page brings: of the rows of the plan those that come after the
values of the cursor, as many as the window holds. What is asked of a table is that the ordering
keys hold values of the kinds of their fields, null only where this is declared, and that a field
whose values tell rows apart does so.
-/
namespace CatalogQuery

open Std

namespace CheckedPlan

def rows (p : CheckedPlan) (t : Table) : List StoredRow :=
  ((p.compile 0).base.map Cell.ofParam).rows t

/-- The values can be those of the ordering keys in a row of the table. -/
structure IsKey (p : CheckedPlan) (t : Table) (value : String → Cell) : Prop where
  fits : ∀ k ∈ p.keyFields, k.1.kind.fits (value k.1.column) = true
  isNull : ∀ k ∈ p.keyFields, k.1.nullable = false → (value k.1.column).isNull = false
  /-- A value that is stored is already as its column takes it. -/
  stored : ∀ k ∈ p.keyFields, (t.affinity k.1.column).apply (value k.1.column) = value k.1.column

/-- The table holds the entity, and its rows can be located by their keys. -/
structure HasKeys (p : CheckedPlan) (t : Table) : Prop where
  stores : ∀ f ∈ p.entity.fields, t.stores f.column = true
  isKey : ∀ row ∈ p.rows t, p.IsKey t (t.value row)
  distinct : ∀ k ∈ p.keyFields, k.1.identifiesRows = true → (p.rows t).Pairwise fun a b =>
    (t.value a k.1.column).order (t.value b k.1.column) ≠ .eq

/-- The rows of the plan that come after the values of a cursor. -/
def rowsAfter (p : CheckedPlan) (t : Table) (value : String → Cell) : List StoredRow :=
  (p.rows t).filter fun row => p.rowOrder value (t.value row) == .lt

/-- The statement of the page after a row with these values. -/
def afterPage (p : CheckedPlan) (generation : UInt64) (pageSize : UInt32) (value : String → Cell) :
    Statement Param :=
  let q := p.compile generation
  { q.base with
    limit := some (CompiledQuery.windowLimit pageSize)
    keyset := some (keysetBranches [] (q.orderBy.zip (p.cursorValues value))) }

/-- The statement of the page after a row with these values puts a key called `with` behind an
opening parenthesis, where this word begins a statement of its own. -/
def enclosesWith (p : CheckedPlan) (value : String → Cell) : Bool :=
  p.keyFields.head?.any (fun k => Keyword.isWith k.1.column) ||
    p.keyFields.any fun k =>
      Keyword.isWith k.1.column && k.2 == .desc && k.1.nullable && !(value k.1.column).isNull

def firstPage (p : CheckedPlan) (generation : UInt64) (pageSize : UInt32) : Statement Param :=
  { (p.compile generation).base with limit := some (CompiledQuery.windowLimit pageSize) }

end CheckedPlan

theorem Table.sortedBy_filter {t : Table} {keys : List (Term × Direction)} {rows : List StoredRow}
    (h : rows.Pairwise fun a b => keyOrder keys (t.termValue a) (t.termValue b) ≠ .eq)
    (test : StoredRow → Bool) :
    t.sortedBy keys (rows.filter test) = (t.sortedBy keys rows).filter test := by
  have hsymm : Std.Symm fun a b => keyOrder keys (t.termValue a) (t.termValue b) ≠ .eq :=
    ⟨fun a b hab hba => hab (OrientedCmp.eq_symm hba)⟩
  have hperm : (t.sortedBy keys (rows.filter test)).Perm ((t.sortedBy keys rows).filter test) :=
    (t.sortedBy_perm keys _).trans ((t.sortedBy_perm keys rows).filter test).symm
  apply List.Perm.eq_of_pairwise _ (t.pairwise_sortedBy keys _)
    ((t.pairwise_sortedBy keys rows).filter test) hperm
  intro a b ha hb hab hba
  have hmemA : a ∈ rows :=
    List.mem_of_mem_filter ((t.sortedBy_perm keys _).mem_iff.mp ha)
  have hmemB : b ∈ rows := (t.sortedBy_perm keys rows).mem_iff.mp (List.mem_of_mem_filter hb)
  by_contra hne
  have hdiffer := h.forall hmemA hmemB hne
  have hswap : keyOrder keys (t.termValue b) (t.termValue a) =
      (keyOrder keys (t.termValue a) (t.termValue b)).swap := OrientedCmp.eq_swap
  rw [hswap] at hba
  cases horder : keyOrder keys (t.termValue a) (t.termValue b) with
  | eq => exact hdiffer horder
  | gt => exact hab horder
  | lt =>
    rw [horder] at hba
    exact hba rfl

theorem KeyTest.map_map {α β γ : Type} (f : α → β) (g : β → γ) (k : KeyTest α) :
    (k.map f).map g = k.map (g ∘ f) := by cases k <;> rfl

/-- A parameter as a value that is compared with those of a key. -/
def Table.keyCell (t : Table) (key : Term) (v : Param) : Cell :=
  (t.affinity key.name).apply (Cell.ofParam v)

theorem Statement.suitBranches_map (t : Table) (branches : List (List (KeyTest Param))) :
    suitBranches t (branches.map fun branch => branch.map (KeyTest.map Cell.ofParam)) =
      branches.map fun branch => branch.map fun test => test.map (t.keyCell test.key) := by
  rw [suitBranches, List.map_map]
  apply List.map_congr_left
  intro branch _
  simp only [Function.comp_apply, List.map_map]
  apply List.map_congr_left
  intro test _
  simp only [Function.comp_apply, KeyTest.map_map, KeyTest.key_map]
  rfl

theorem toInt_windowLimit (pageSize : UInt32) :
    (Int64.ofInt ((pageSize.toNat : Int) + 1)).toInt = (pageSize.toNat : Int) + 1 := by
  have hsize := pageSize.toNat_lt
  exact Int64.toInt_ofInt_of_le (by omega) (by omega)

/-- The window of a page shows one row more than the page holds. -/
theorem rowCount?_windowLimit (pageSize : UInt32) :
    Statement.rowCount? (Cell.ofParam (CompiledQuery.windowLimit pageSize)) =
      some (pageSize.toNat + 1) := by
  have hint := toInt_windowLimit pageSize
  rw [CompiledQuery.windowLimit, Cell.ofParam, Statement.rowCount?, hint, if_pos (by omega)]
  rfl

namespace CheckedPlan

section Rows

variable {p : CheckedPlan} (hp : p.IsListing) {t : Table}

theorem rows_eq : p.rows t =
    t.sortedBy (p.compile 0).base.orderBy
      ((((p.compile 0).base.map Cell.ofParam).suited t).matching t) := rfl

theorem mem_rows_of_truth {row : StoredRow} (hrow : row ∈ t.numberedRows)
    (h : (((p.compile 0).base.map Cell.ofParam).suited t).truth t row = some true) :
    row ∈ p.rows t := by
  rw [rows_eq]
  exact (t.sortedBy_perm _ _).mem_iff.mpr (List.mem_filter.mpr ⟨hrow, beq_iff_eq.mpr h⟩)

theorem mem_numberedRows_of_mem_rows {row : StoredRow} (h : row ∈ p.rows t) :
    row ∈ t.numberedRows := by
  rw [rows_eq] at h
  exact (List.mem_filter.mp ((t.sortedBy_perm _ _).mem_iff.mp h)).1

/-- The rows can be located by their keys if all rows of the table can. -/
theorem HasKeys.of_numberedRows (hstores : ∀ f ∈ p.entity.fields, t.stores f.column = true)
    (hkey : ∀ row ∈ t.numberedRows, p.IsKey t (t.value row))
    (hdistinct : ∀ k ∈ p.keyFields, k.1.identifiesRows = true → t.numberedRows.Pairwise fun a b =>
      (t.value a k.1.column).order (t.value b k.1.column) ≠ .eq) : p.HasKeys t where
  stores := hstores
  isKey row hrow := hkey row (mem_numberedRows_of_mem_rows hrow)
  distinct k hk hidentifies := by
    rw [rows_eq]
    refine List.Pairwise.perm ?_ (t.sortedBy_perm _ _).symm fun hne heq => hne (OrientedCmp.eq_symm heq)
    exact (hdistinct k hk hidentifies).filter _

end Rows

namespace IsListing

variable {p : CheckedPlan} (hp : p.IsListing) (generation : UInt64) {t : Table}

include hp

/-- The keys of the statement with the values of a cursor. -/
theorem orderBy_zip_cursorValues (value : String → Cell) :
    (p.compile generation).orderBy.zip (p.cursorValues value) = p.keyFields.map fun k =>
      ({ term := .column k.1.column,
         column := columnIndex (p.compile generation).columns k.1.name, direction := k.2,
         nullable := k.1.nullable }, k.1.kind.param (value k.1.column)) := by
  have hkeys : (p.compile generation).orderBy = _ := hp.orderBy_eq (p.compile generation).columns
  rw [hkeys, cursorValues, List.zip_map']

/-- On a row of the plan the keyset predicate is true just if the row comes after the cursor. -/
theorem keysetTruth_iff {value : String → Cell} {row : StoredRow} (hvalue : p.IsKey t value)
    (hrow : p.IsKey t (t.value row)) :
    keysetTruth (t.termValue row)
        ((keysetBranches [] ((p.compile generation).orderBy.zip (p.cursorValues value))).map
          fun branch => branch.map fun test => test.map (t.keyCell test.key)) = some true ↔
      p.rowOrder value (t.value row) = .lt := by
  have hcell : ∀ k ∈ p.keyFields,
      t.keyCell (.column k.1.column) (k.1.kind.param (value k.1.column)) = value k.1.column := by
    intro k hk
    rw [Table.keyCell, Cell.ofParam_param (hvalue.fits k hk)]
    exact hvalue.stored k hk
  rw [hp.orderBy_zip_cursorValues, CatalogQuery.keysetTruth_iff]
  · have hcells : p.keyFields.map (fun k =>
        t.keyCell (.column k.1.column) (k.1.kind.param (value k.1.column))) =
          p.keyFields.map fun k => value k.1.column := List.map_congr_left hcell
    rw [rowOrder_eq_keyOrder, keyOrder]
    simp only [List.map_map, Function.comp_def, hcells]
    rfl
  · intro kv hkv
    obtain ⟨k, hk, rfl⟩ := List.mem_map.mp hkv
    show (t.keyCell (.column k.1.column) (k.1.kind.param (value k.1.column))).isNull = true ↔ _
    rw [hcell k hk, ValueKind.param_eq_null_iff (hvalue.fits k hk)]
  · intro kv hkv
    obtain ⟨k, hk, rfl⟩ := List.mem_map.mp hkv
    exact hrow.isNull k hk

theorem afterPage_truth_iff {pageSize : UInt32} {value : String → Cell} {row : StoredRow}
    (hvalue : p.IsKey t value) (ht : p.HasKeys t) (hrow : row ∈ t.numberedRows) :
    (((p.afterPage generation pageSize value).map Cell.ofParam).suited t).truth t row = some true ↔
      (((p.compile 0).base.map Cell.ofParam).suited t).truth t row = some true ∧
        p.rowOrder value (t.value row) = .lt := by
  have hkeyset : (((p.afterPage generation pageSize value).map Cell.ofParam).suited t).truth t row =
      some true ↔ (((p.compile 0).base.map Cell.ofParam).suited t).truth t row = some true ∧
        keysetTruth (t.termValue row)
          ((keysetBranches [] ((p.compile generation).orderBy.zip (p.cursorValues value))).map
            fun branch => branch.map fun test => test.map (t.keyCell test.key)) = some true := by
    rw [Statement.truth_suited_iff, Statement.truth_suited_iff, ← Statement.suitBranches_map]
    constructor
    · rintro ⟨hconditions, hbranches⟩
      refine ⟨⟨hconditions, ?_⟩, hbranches _ rfl⟩
      intro branches hnone
      cases hnone
    · rintro ⟨⟨hconditions, -⟩, htrue⟩
      refine ⟨hconditions, ?_⟩
      intro branches hsome
      rw [← Option.some_inj.mp hsome]
      exact htrue
  rw [hkeyset]
  apply and_congr_right
  intro htrue
  exact hp.keysetTruth_iff generation hvalue (ht.isKey row (mem_rows_of_truth hrow htrue))

theorem exists_identifying (hmode : p.cursorMode = .keyset) :
    ∃ k ∈ p.keyFields, k.1.identifiesRows = true := by
  have hapart : p.tellsRowsApart = true := by
    rw [cursorMode] at hmode
    split at hmode
    next h => exact h.2
    next => cases hmode
  obtain ⟨o, ho, hidentifies⟩ := List.any_eq_true.mp hapart
  obtain ⟨f, -, htarget⟩ := hp.order_mem o ho
  rw [htarget] at hidentifies
  exact ⟨(f, o.direction), List.mem_filterMap.mpr ⟨o, ho, by rw [htarget]⟩, hidentifies⟩

/-- Rows of the plan that differ are told apart by the keys. -/
theorem rows_differ (hmode : p.cursorMode = .keyset) (ht : p.HasKeys t) :
    (p.rows t).Pairwise fun a b => p.rowOrder (t.value a) (t.value b) ≠ .eq := by
  obtain ⟨k, hk, hidentifies⟩ := hp.exists_identifying hmode
  apply (ht.distinct k hk hidentifies).imp
  intro a b hab
  rw [rowOrder_eq_keyOrder]
  exact keyOrder_ne_eq (k := (.column k.1.column, k.2)) (List.mem_map.mpr ⟨k, hk, rfl⟩) hab

/-- The rows of the plan are strictly ordered. -/
theorem rows_increasing (hmode : p.cursorMode = .keyset) (ht : p.HasKeys t) :
    (p.rows t).Pairwise fun a b => p.rowOrder (t.value a) (t.value b) = .lt := by
  have hsorted : (p.rows t).Pairwise fun a b => p.rowOrder (t.value a) (t.value b) ≠ .gt := by
    apply (t.pairwise_sortedBy (p.compile 0).base.orderBy _).imp
    intro a b hab
    rw [← hp.keyOrder_eq 0]
    exact hab
  apply (hsorted.and (hp.rows_differ hmode ht)).imp
  rintro a b ⟨hgt, heq⟩
  cases horder : p.rowOrder (t.value a) (t.value b) with
  | lt => rfl
  | eq => exact absurd horder heq
  | gt => exact absurd horder hgt

theorem afterPage_matching {pageSize : UInt32} {value : String → Cell} (ht : p.HasKeys t)
    (hvalue : p.IsKey t value) :
    (((p.afterPage generation pageSize value).map Cell.ofParam).suited t).matching t =
      ((((p.compile 0).base.map Cell.ofParam).suited t).matching t).filter fun row =>
        p.rowOrder value (t.value row) == .lt := by
  rw [Statement.matching, Statement.matching, List.filter_filter]
  apply List.filter_congr
  intro row hrow
  apply Bool.eq_iff_iff.mpr
  rw [Bool.and_eq_true, beq_iff_eq, beq_iff_eq, beq_iff_eq,
    hp.afterPage_truth_iff generation hvalue ht hrow]
  exact and_comm

/-- The page after a cursor has the rows of the plan that come after it, up to one more than fit. -/
theorem afterPage_rows {pageSize : UInt32} {value : String → Cell} (hmode : p.cursorMode = .keyset)
    (ht : p.HasKeys t) (hvalue : p.IsKey t value) :
    ((p.afterPage generation pageSize value).map Cell.ofParam).rows t =
      (p.rowsAfter t value).take (pageSize.toNat + 1) := by
  have hdiffer : ((((p.compile 0).base.map Cell.ofParam).suited t).matching t).Pairwise fun a b =>
      keyOrder (p.compile 0).base.orderBy (t.termValue a) (t.termValue b) ≠ .eq := by
    apply (t.sortedBy_perm (p.compile 0).base.orderBy _).pairwise
    · apply (hp.rows_differ hmode ht).imp
      intro a b hab
      rw [← hp.keyOrder_eq 0] at hab
      exact hab
    · intro a b hab hba
      exact hab (OrientedCmp.eq_symm hba)
  rw [Statement.rows, hp.afterPage_matching generation ht hvalue]
  show Statement.window _ (t.sortedBy (p.compile 0).base.orderBy _) = _
  have hlimit : ((p.afterPage generation pageSize value).map Cell.ofParam).limit.bind
      Statement.rowCount? = some (pageSize.toNat + 1) := rowCount?_windowLimit pageSize
  rw [Table.sortedBy_filter hdiffer, Statement.window_eq_take hlimit rfl]
  rfl

omit hp in
/-- The first page has the rows of the plan, up to one more than fit. -/
theorem firstPage_rows (pageSize : UInt32) :
    ((p.firstPage generation pageSize).map Cell.ofParam).rows t =
      (p.rows t).take (pageSize.toNat + 1) := by
  have hlimit : ((p.firstPage generation pageSize).map Cell.ofParam).limit.bind
      Statement.rowCount? = some (pageSize.toNat + 1) := rowCount?_windowLimit pageSize
  rw [Statement.rows, Statement.window_eq_take hlimit rfl]
  rfl

/-- The statement of a page uses the names of the statement of the plan. -/
theorem mem_afterPage_columnNames {pageSize : UInt32} {value : String → Cell} {name : String} :
    name ∈ (p.afterPage generation pageSize value).columnNames ↔
      name ∈ (p.compile generation).base.columnNames := by
  simp only [Statement.columnNames, List.mem_append]
  constructor
  · rintro ((((h | h) | h) | h) | h)
    · exact .inl (.inl (.inl (.inl h)))
    · exact .inl (.inl (.inl (.inr h)))
    · obtain ⟨branch, hbranch, hname⟩ := List.mem_flatMap.mp h
      obtain ⟨test, htest, rfl⟩ := List.mem_map.mp hname
      have hbranch : branch ∈ keysetBranches []
          ((p.compile generation).orderBy.zip (p.cursorValues value)) := hbranch
      rw [hp.orderBy_zip_cursorValues] at hbranch
      rcases key_mem_keysetBranches hbranch htest with hties | ⟨kv, hkv, hkey⟩
      · cases hties
      · obtain ⟨k, hk, rfl⟩ := List.mem_map.mp hkv
        have horder : (.column k.1.column, k.2) ∈ (p.compile generation).base.orderBy := by
          rw [hp.base_orderBy]
          exact List.mem_map_of_mem hk
        have hmem := (hp.base_isListing generation).order_mem_columnNames horder
        simp only [Statement.columnNames, List.mem_append] at hmem
        rw [← hkey]
        exact hmem
    · exact .inl (.inr h)
    · exact .inr h
  · rintro ((((h | h) | h) | h) | h)
    · exact .inl (.inl (.inl (.inl h)))
    · exact .inl (.inl (.inl (.inr h)))
    · cases h
    · exact .inl (.inr h)
    · exact .inr h

theorem enclosesWith_iff (pageSize : UInt32) {value : String → Cell} (hmode : p.cursorMode = .keyset)
    (hvalue : p.IsKey t value) :
    (∃ name ∈ (p.afterPage generation pageSize value).enclosedNames, Keyword.isWith name = true) ↔
      p.enclosesWith value = true := by
  have hkeyset : (p.afterPage generation pageSize value).keyset = some (keysetBranches [] _) :=
    congrArg (fun kvs => some (keysetBranches [] kvs)) (hp.orderBy_zip_cursorValues generation value)
  have hnull : ∀ k ∈ p.keyFields, (k.1.kind.param (value k.1.column) != .null) =
      !(value k.1.column).isNull := by
    intro k hk
    apply Bool.eq_iff_iff.mpr
    rw [bne_iff_ne, Ne, ValueKind.param_eq_null_iff (hvalue.fits k hk), Bool.not_eq_true',
      Bool.not_eq_true]
  -- The field that tells rows apart is never null, so a row can come after its value.
  obtain ⟨id, hid, hidentifies⟩ := hp.exists_identifying hmode
  have hidNull : id.1.kind.param (value id.1.column) ≠ .null := by
    rw [Ne, ValueKind.param_eq_null_iff (hvalue.fits id hid), Bool.not_eq_true]
    apply hvalue.isNull id hid
    rw [Field.identifiesRows, Bool.and_eq_true, Bool.not_eq_true'] at hidentifies
    exact hidentifies.2
  have hnames := Statement.mem_enclosedNames_iff hkeyset (List.mem_map_of_mem hid)
    (by rw [OrderKey.after_of_ne_null hidNull]; rfl)
  simp only [hnames, List.head?_map, Option.any_map, List.mem_map, exists_exists_and_eq_and]
  rw [enclosesWith, Bool.or_eq_true, List.any_eq_true]
  constructor
  · rintro ⟨name, hhead | ⟨k, hk, hopens, rfl⟩, hwith⟩
    · left
      cases hfirst : p.keyFields.head? with
      | none => rw [hfirst] at hhead; cases hhead
      | some k =>
        rw [hfirst] at hhead
        rw [← beq_iff_eq.mp hhead] at hwith
        exact hwith
    · right
      have hwith : Keyword.isWith k.1.column = true := hwith
      refine ⟨k, hk, ?_⟩
      rw [OrderKey.isEnclosed, hnull k hk] at hopens
      simpa [hwith, and_assoc] using hopens
  · rintro (hhead | ⟨k, hk, hopens⟩)
    · cases hfirst : p.keyFields.head? with
      | none => rw [hfirst] at hhead; cases hhead
      | some k =>
        rw [hfirst] at hhead
        exact ⟨k.1.column, .inl (beq_self_eq_true _), hhead⟩
    · simp only [Bool.and_eq_true] at hopens
      obtain ⟨⟨⟨hwith, hdesc⟩, hnullable⟩, hvalue⟩ := hopens
      refine ⟨k.1.column, .inr ⟨k, hk, ?_, rfl⟩, hwith⟩
      rw [OrderKey.isEnclosed, hnull k hk, hdesc, hnullable, hvalue]
      rfl

theorem afterPage_enclosedNames {pageSize : UInt32} {value : String → Cell}
    (hmode : p.cursorMode = .keyset) (hvalue : p.IsKey t value) :
    (∀ name ∈ (p.afterPage generation pageSize value).enclosedNames, Keyword.isWith name = false) ↔
      p.enclosesWith value = false := by
  rw [← Bool.not_eq_true, ← hp.enclosesWith_iff generation pageSize hmode hvalue]
  simp only [not_exists, not_and, Bool.not_eq_true]

/-- The statement of a page uses a reserved word only if the statement of the plan does, or if it
puts `with` behind an opening parenthesis. -/
theorem afterPage_reservedWord?_iff {pageSize : UInt32} {value : String → Cell}
    (hmode : p.cursorMode = .keyset) (hvalue : p.IsKey t value) :
    (p.afterPage generation pageSize value).reservedWord? = none ↔
      (p.compile generation).base.reservedWord? = none ∧ p.enclosesWith value = false := by
  rw [Statement.reservedWord?_eq_none_iff, Statement.reservedWord?_eq_none_iff,
    hp.afterPage_enclosedNames generation hmode hvalue]
  constructor
  · rintro ⟨htable, hcolumns, hwith⟩
    refine ⟨⟨htable, ?_, ?_⟩, hwith⟩
    · intro name hname
      exact hcolumns name ((hp.mem_afterPage_columnNames generation).mpr hname)
    · intro name hname
      cases hname
  · rintro ⟨⟨htable, hcolumns, -⟩, hwith⟩
    refine ⟨htable, ?_, hwith⟩
    intro name hname
    exact hcolumns name ((hp.mem_afterPage_columnNames generation).mp hname)

end IsListing

end CheckedPlan

end CatalogQuery
