import CatalogQuery.Proofs.ValueOrder
import CatalogQuery.Store.Basic
import Mathlib.Data.List.TakeWhile
/-!
# Statements for rows

A statement without groups and aggregates brings one record to the row: the rows on which its
conditions are true, sorted by its keys, with its window cut out. What is said here of a store is
that it answers at all: a connection is free, the table is there, and the statement is within the
limits of the store and of the time it is given.
-/
namespace CatalogQuery

open Std

namespace Table

/-- The name stands for something stored in the row, and not for a constant. -/
def stores (t : Table) (name : String) : Bool :=
  match t.source? name with
  | some (.column _) | some .rowNumber => true
  | _ => false

theorem constant?_eq_none_of_stores {t : Table} {name : String} (h : t.stores name = true) :
    t.constant? name = none := by
  cases hc : t.constant? name with
  | none => rfl
  | some c => simp [stores, source?, hc] at h

theorem constant?_readAt_eq_none {t : Table} {name : String} (h : t.constant? name = none)
    (now : Int) : constant? { t with readAt := now } name = none := by
  unfold constant? at h ⊢
  split at h
  · cases h
  next h1 =>
    split at h
    · cases h
    next h2 =>
      split at h
      · cases h
      next h3 =>
        split at h
        · cases h
        next h4 => simp [h1, h2, h3, h4]

/-- What is stored under a name does not depend on the clock. -/
theorem source?_readAt {t : Table} {name : String} (h : t.stores name = true) (now : Int) :
    source? { t with readAt := now } name = t.source? name := by
  have hc := constant?_eq_none_of_stores h
  rw [source?, source?, hc, constant?_readAt_eq_none hc now]
  rfl

theorem stores_readAt {t : Table} {name : String} (h : t.stores name = true) (now : Int) :
    stores { t with readAt := now } name = true := by
  rw [stores, source?_readAt h now]
  exact h

theorem value_readAt {t : Table} {name : String} (h : t.stores name = true) (now : Int)
    (row : StoredRow) : value { t with readAt := now } row name = t.value row name := by
  rw [value, value, source?_readAt h now]

theorem affinity_readAt {t : Table} {name : String} (h : t.stores name = true) (now : Int) :
    affinity { t with readAt := now } name = t.affinity name := by
  rw [affinity, affinity, source?_readAt h now]

theorem source?_isNone_of_stores {t : Table} {name : String} (h : t.stores name = true) :
    (t.source? name).isNone = false := by
  cases hs : t.source? name with
  | none => simp [stores, hs] at h
  | some s => rfl

instance (t : Table) (keys : List (Term × Direction)) :
    TransCmp fun a b => keyOrder keys (t.termValue a) (t.termValue b) where
  eq_swap := OrientedCmp.eq_swap
  isLE_trans := TransCmp.isLE_trans

/-- The rows sorted by the keys, rows that tie as they were. -/
def sortedBy (t : Table) (keys : List (Term × Direction)) (rows : List StoredRow) :
    List StoredRow :=
  rows.mergeSort fun a b => keyOrder keys (t.termValue a) (t.termValue b) != .gt

theorem sortedBy_perm (t : Table) (keys : List (Term × Direction)) (rows : List StoredRow) :
    (t.sortedBy keys rows).Perm rows := List.mergeSort_perm _ _

theorem pairwise_sortedBy (t : Table) (keys : List (Term × Direction)) (rows : List StoredRow) :
    (t.sortedBy keys rows).Pairwise fun a b =>
      keyOrder keys (t.termValue a) (t.termValue b) ≠ .gt :=
  pairwise_mergeSort_notAfter (fun a b => keyOrder keys (t.termValue a) (t.termValue b)) rows

end Table

/-- The truth of a condition depends on the value of its column only. -/
theorem Condition.truth_congr {value value' : String → Cell} (c : Condition Cell)
    (h : value c.column = value' c.column) : c.truth value = c.truth value' := by
  cases c with
  | compare column op v =>
    have h : value column = value' column := h
    simp only [truth, h]
  | isIn column vs =>
    have h : value column = value' column := h
    simp only [truth, h]
  | like column pattern =>
    have h : value column = value' column := h
    simp only [truth, h]
  | between column low high =>
    have h : value column = value' column := h
    simp only [truth, h]

theorem KeyTest.truth_congr {value value' : Term → Cell} (k : KeyTest Cell)
    (h : value k.key = value' k.key) : k.truth value = k.truth value' := by
  cases k <;> simp only [key] at h <;> simp only [truth, h]

theorem Truth.all_eq_true {ts : List Truth} :
    Truth.all ts = some true ↔ ∀ t ∈ ts, t = some true := by
  induction ts with
  | nil => simp [Truth.all]
  | cons t ts ih =>
    have hcons : Truth.all (t :: ts) = t.and (Truth.all ts) := rfl
    rw [hcons, Truth.and_eq_true, ih, List.forall_mem_cons]

theorem Truth.any_eq_true {ts : List Truth} :
    Truth.any ts = some true ↔ ∃ t ∈ ts, t = some true := by
  induction ts with
  | nil => simp [Truth.any]
  | cons t ts ih =>
    have hcons : Truth.any (t :: ts) = t.or (Truth.any ts) := rfl
    rw [hcons, Truth.or_eq_true, ih]
    simp only [List.mem_cons, exists_eq_or_imp]

@[simp] theorem Condition.column_map {α β : Type} (f : α → β) (c : Condition α) :
    (c.map f).column = c.column := by cases c <;> rfl

@[simp] theorem KeyTest.key_map {α β : Type} (f : α → β) (k : KeyTest α) :
    (k.map f).key = k.key := by cases k <;> rfl

@[simp] theorem KeyTest.height_map {α β : Type} (f : α → β) (k : KeyTest α) :
    (k.map f).height = k.height := by cases k <;> rfl

@[simp] theorem KeyTest.enclosedKey?_map {α β : Type} (f : α → β) (k : KeyTest α) :
    (k.map f).enclosedKey? = k.enclosedKey? := by cases k <;> rfl

@[simp] theorem Condition.values_map {α β : Type} (f : α → β) (c : Condition α) :
    (c.map f).values = c.values.map f := by cases c <;> rfl

/-- The condition with its values taken as those of a column; a pattern is taken as it is. -/
def Condition.suitedTo (a : Affinity) : Condition Cell → Condition Cell
  | .compare column op value => .compare column op (a.apply value)
  | .isIn column values => .isIn column (values.map a.apply)
  | .like column pattern => .like column pattern
  | .between column low high => .between column (a.apply low) (a.apply high)

@[simp] theorem Condition.column_suitedTo (a : Affinity) (c : Condition Cell) :
    (c.suitedTo a).column = c.column := by cases c <;> rfl

@[simp] theorem Condition.hasLongPattern_suitedTo (a : Affinity) (c : Condition Cell) :
    (c.suitedTo a).hasLongPattern = c.hasLongPattern := by cases c <;> rfl

@[simp] theorem KeyTest.values_map {α β : Type} (f : α → β) (k : KeyTest α) :
    (k.map f).values = k.values.map f := by cases k <;> rfl

namespace Statement

section Map

variable {α β : Type} (f : α → β) (s : Statement α)

theorem map_conditions : (s.map f).conditions = s.conditions.map (Condition.map f) := rfl

/-- A keyset predicate with its values replaced. -/
theorem keyset_getD_map :
    (s.map f).keyset.getD [] = (s.keyset.getD []).map fun branch => branch.map (KeyTest.map f) := by
  rw [map]
  cases s.keyset <;> rfl

theorem columnNames_map : (s.map f).columnNames = s.columnNames := by
  have hconditions : (s.map f).conditions.map Condition.column = s.conditions.map Condition.column := by
    rw [map_conditions, List.map_map]
    exact List.map_congr_left fun c _ => c.column_map f
  have hkeyset : ((s.map f).keyset.getD []).flatMap (fun branch => branch.map fun k => k.key.name) =
      (s.keyset.getD []).flatMap (fun branch => branch.map fun k => k.key.name) := by
    rw [keyset_getD_map, List.flatMap_map]
    congr 1
    funext branch
    rw [List.map_map]
    exact List.map_congr_left fun k _ => congrArg Term.name (k.key_map f)
  rw [columnNames, hconditions, hkeyset]
  rfl

theorem enclosedNames_map : (s.map f).enclosedNames = s.enclosedNames := by
  rw [enclosedNames, keyset_getD_map, List.flatMap_map, enclosedNames]
  congr 1
  funext branch
  congr 1
  · cases branch with
    | nil => rfl
    | cons k rest =>
      show [(k.map f).key.name] = [k.key.name]
      rw [KeyTest.key_map]
  · rw [List.filterMap_map]
    congr 2
    funext k
    exact k.enclosedKey?_map f

theorem reservedWord?_map : (s.map f).reservedWord? = s.reservedWord? := by
  rw [reservedWord?, columnNames_map, enclosedNames_map]
  rfl

theorem conditionHeight_map : (s.map f).conditionHeight = s.conditionHeight := by
  have hconditions : (s.map f).conditions.map (fun _ => 2) = s.conditions.map fun _ => 2 := by
    rw [map_conditions, List.map_map]
    rfl
  have hkeyset : ((s.map f).keyset.map fun branches =>
        chainHeight (branches.map fun branch => chainHeight (branch.map KeyTest.height))) =
      s.keyset.map fun branches =>
        chainHeight (branches.map fun branch => chainHeight (branch.map KeyTest.height)) := by
    rw [map, Option.map_map]
    congr 1
    funext branches
    simp only [Function.comp_apply, List.map_map]
    congr 2
    funext branch
    simp only [Function.comp_apply, List.map_map]
    congr 2
    funext k
    exact k.height_map f
  rw [conditionHeight, hconditions, hkeyset]
  rfl

theorem values_map : (s.map f).values = s.values.map f := by
  have hconditions : (s.map f).conditions.flatMap Condition.values =
      (s.conditions.flatMap Condition.values).map f := by
    rw [map_conditions, List.flatMap_map, List.map_flatMap]
    congr 1
    funext c
    exact c.values_map f
  have hkeyset : ((s.map f).keyset.getD []).flatMap (fun branch => branch.flatMap KeyTest.values) =
      ((s.keyset.getD []).flatMap (fun branch => branch.flatMap KeyTest.values)).map f := by
    rw [keyset_getD_map, List.flatMap_map, List.map_flatMap]
    congr 1
    funext branch
    rw [List.flatMap_map, List.map_flatMap]
    congr 1
    funext k
    exact k.values_map f
  rw [values, hconditions, hkeyset, values, List.map_append, List.map_append, List.map_append,
    ← Option.toList_map, ← Option.toList_map]
  rfl

theorem isTooLarge_map : (s.map f).isTooLarge = s.isTooLarge := by
  rw [isTooLarge, conditionHeight_map, values_map, List.length_map, isTooLarge]
  rfl

end Map

section Suited

variable (s : Statement Cell) (t : Table)

theorem suitConditions_eq :
    s.suitConditions t = s.conditions.map fun c => c.suitedTo (t.affinity c.column) := by
  apply List.map_congr_left
  intro c _
  cases c <;> rfl

theorem suitConditions_column :
    (s.suitConditions t).map Condition.column = s.conditions.map Condition.column := by
  rw [suitConditions_eq, List.map_map]
  exact List.map_congr_left fun c _ => c.column_suitedTo _

/-- The branches of a keyset predicate with their values taken as those of the columns. -/
def suitBranches (branches : List (List (KeyTest Cell))) : List (List (KeyTest Cell)) :=
  branches.map fun branch => branch.map fun k => k.map (t.affinity k.key.name).apply

theorem suited_eq :
    s.suited t =
      { s with conditions := s.suitConditions t, keyset := s.keyset.map (suitBranches t) } := rfl

theorem keyset_getD_suited :
    (s.suited t).keyset.getD [] = suitBranches t (s.keyset.getD []) := by
  rw [suited_eq]
  cases s.keyset <;> rfl

theorem columnNames_suited : (s.suited t).columnNames = s.columnNames := by
  have hkeyset : ((s.suited t).keyset.getD []).flatMap (fun branch => branch.map fun k => k.key.name) =
      (s.keyset.getD []).flatMap (fun branch => branch.map fun k => k.key.name) := by
    rw [keyset_getD_suited, suitBranches, List.flatMap_map]
    congr 1
    funext branch
    rw [List.map_map]
    exact List.map_congr_left fun k _ => congrArg Term.name (k.key_map _)
  rw [columnNames, hkeyset]
  show _ ++ (s.suitConditions t).map Condition.column ++ _ ++ _ ++ _ = _
  rw [suitConditions_column]
  rfl

/-- The conditions of a statement on a row, where no keyset predicate comes with them. -/
def conditionsHold (s : Statement Param) (t : Table) (row : StoredRow) : Prop :=
  ∀ c ∈ s.conditions,
    ((c.map Cell.ofParam).suitedTo (t.affinity c.column)).truth (t.value row) = some true

theorem truth_suited_iff {s : Statement Param} {t : Table} {row : StoredRow} :
    ((s.map Cell.ofParam).suited t).truth t row = some true ↔
      s.conditionsHold t row ∧ ∀ branches ∈ (s.map Cell.ofParam).keyset,
        keysetTruth (t.termValue row) (suitBranches t branches) = some true := by
  rw [truth, Truth.and_eq_true, Truth.all_eq_true, suited_eq]
  apply and_congr
  · show (∀ x ∈ (suitConditions _ t).map _, _) ↔ _
    rw [suitConditions_eq, map_conditions, conditionsHold]
    simp only [List.mem_map, forall_exists_index, and_imp, forall_apply_eq_imp_iff₂,
      Condition.column_map]
  · cases (s.map Cell.ofParam).keyset <;> simp

theorem hasLongPattern_suited {s : Statement Cell} (h : ∀ c ∈ s.conditions, c.hasLongPattern = false) :
    (s.suited t).hasLongPattern t = false := by
  have hall : ∀ c ∈ (s.suited t).conditions, (!c.hasLongPattern) = true := by
    intro c hc
    rw [suited_eq, suitConditions_eq] at hc
    obtain ⟨d, hd, rfl⟩ := List.mem_map.mp hc
    rw [Condition.hasLongPattern_suitedTo, h d hd]
    rfl
  have htake : (s.suited t).conditions.takeWhile (fun c => !c.hasLongPattern) =
      (s.suited t).conditions := List.takeWhile_eq_self_iff.mpr hall
  rw [hasLongPattern, htake]
  simp

end Suited

theorem orderRecords_eq_keyOrder (s : Statement Cell) (t : Table) (a b : SelectedRecord) :
    s.orderRecords t a b = keyOrder s.orderBy (s.orderValue t a) (s.orderValue t b) := rfl

theorem sorted_eq_mergeSort (s : Statement Cell) (t : Table) (rs : List SelectedRecord) :
    s.sorted t rs = rs.mergeSort fun a b => s.orderRecords t a b != .gt := by
  rw [sorted]
  by_cases h : s.orderBy.isEmpty
  · have hties (a b : SelectedRecord) : s.orderRecords t a b = .eq := by
      rw [orderRecords_eq_keyOrder, List.isEmpty_iff.mp h, keyOrder_nil]
    rw [if_pos h, List.mergeSort_of_pairwise]
    exact List.pairwise_of_forall fun a b => by rw [hties]; rfl
  · rw [if_neg h]

/-- The statement makes one record to the row: it has no aggregates and no groups. -/
structure IsListing {α : Type} (s : Statement α) : Prop where
  output_label : ∀ o ∈ s.output, o.label? = none
  groupBy_nil : s.groupBy = []

def rows (s : Statement Cell) (t : Table) : List StoredRow :=
  s.window (t.sortedBy s.orderBy ((s.suited t).matching t))

/-- The values of the result columns in a row. -/
def rowCells {α : Type} (s : Statement α) (t : Table) (row : StoredRow) : List Cell :=
  s.output.map fun o => t.value row (o.source?.getD "")

namespace IsListing

theorem labelIndex? {α : Type} {s : Statement α} (hs : s.IsListing) (key : Term) :
    s.labelIndex? key = none := by
  rw [Statement.labelIndex?, List.findIdx?_eq_none_iff]
  intro o ho
  rw [hs.output_label o ho]

theorem map {α β : Type} {s : Statement α} (hs : s.IsListing) (f : α → β) : (s.map f).IsListing :=
  ⟨hs.output_label, hs.groupBy_nil⟩

variable {s : Statement Cell} (hs : s.IsListing)

include hs

theorem not_isGrouped : s.isGrouped = false := by
  rw [isGrouped, hs.groupBy_nil]
  simpa using hs.output_label

theorem orderRecords (t : Table) (a b : SelectedRecord) :
    s.orderRecords t a b = keyOrder s.orderBy (t.termValue a.row) (t.termValue b.row) := by
  have hvalue (r : SelectedRecord) (key : Term) : s.orderValue t r key = t.termValue r.row key := by
    rw [orderValue, hs.labelIndex? key]
    rfl
  rw [Statement.orderRecords, keyOrder]
  simp only [hvalue]

/-- Sorting the records of rows sorts the rows. -/
theorem sorted_map (t : Table) (rows : List StoredRow) :
    s.sorted t (rows.map (s.rowRecord t)) = (t.sortedBy s.orderBy rows).map (s.rowRecord t) := by
  rw [sorted_eq_mergeSort, Table.sortedBy, List.map_mergeSort]
  intro a _ b _
  rw [hs.orderRecords]
  rfl

end IsListing

theorem window_eq_take {β : Type} {s : Statement Cell} {n : Nat}
    (hlimit : s.limit.bind rowCount? = some n)
    (hoffset : s.offset = none) (rs : List β) : s.window rs = rs.take n := by
  rw [window, hlimit, hoffset]
  rfl

theorem rowCount?_integer {n : Int64} (hn : 0 ≤ n.toInt) :
    rowCount? (.integer n) = some n.toInt.toNat := if_pos hn

theorem window_eq_self {β : Type} {s : Statement Cell} (hlimit : s.limit = none)
    (hoffset : s.offset = none) (rs : List β) : s.window rs = rs := by
  rw [window, hlimit, hoffset]
  rfl

theorem window_eq_take_drop {β : Type} {s : Statement Cell} {n m : Nat}
    (hlimit : s.limit.bind rowCount? = some n) (hoffset : s.offset.bind rowCount? = some m)
    (rs : List β) : s.window rs = (rs.drop m).take n := by
  rw [window, hlimit, hoffset]
  rfl

/-- A window shows nothing that comes after its end. -/
theorem window_take {β : Type} {s : Statement Cell} {n : Nat} (hlimit : s.limit.bind rowCount? = some n)
    (rs : List β) : s.window (rs.take ((s.offset.bind rowCount?).getD 0 + n)) = s.window rs := by
  rw [window, window, hlimit]
  show List.take n (List.drop _ (List.take _ _)) = List.take n (List.drop _ _)
  rw [List.drop_take, Nat.add_sub_cancel_left, List.take_take, Nat.min_self]

theorem mem_of_mem_window {β : Type} {s : Statement Cell} {rs : List β} {r : β}
    (h : r ∈ s.window rs) : r ∈ rs := by
  rw [window] at h
  split at h
  · exact List.mem_of_mem_drop h
  · exact List.mem_of_mem_drop (List.mem_of_mem_take h)

theorem window_map {β γ : Type} (f : β → γ) (s : Statement Cell) (rs : List β) :
    s.window (rs.map f) = (s.window rs).map f := by
  rw [window, window]
  cases s.limit.bind rowCount? with
  | none => exact List.map_drop.symm
  | some n =>
    show List.take _ (List.drop _ _) = _
    rw [← List.map_drop, ← List.map_take]

/-- What a statement selects: the window of its records in order. -/
theorem select_eq_ok_iff {s : Statement Cell} {t : Table} {rows : List (List Cell)} :
    s.select t = .ok rows ↔ s.fault? t = none ∧ (s.suited t).hasLongPattern t = false ∧
      ∃ rs, (s.suited t).records t = .ok rs ∧
        ((s.suited t).window ((s.suited t).sorted t rs)).map (·.cells) = rows := by
  rw [select]
  cases s.fault? t with
  | some f => simp
  | none =>
    cases hlong : (s.suited t).hasLongPattern t with
    | true => simp [hlong, bind, Except.bind]
    | false =>
      cases hrecords : (s.suited t).records t with
      | error e => simp [hlong, hrecords, bind, Except.bind]
      | ok rs => simp [hlong, hrecords, bind, Except.bind]

theorem select_listing {s : Statement Cell} {t : Table} (hs : s.IsListing) (hfault : s.fault? t = none)
    (hpattern : (s.suited t).hasLongPattern t = false) :
    s.select t = .ok ((s.rows t).map (s.rowCells t)) := by
  have hsuited : (s.suited t).IsListing := ⟨hs.output_label, hs.groupBy_nil⟩
  have hrecords : (s.suited t).records t =
      .ok (((s.suited t).matching t).map ((s.suited t).rowRecord t)) := by
    rw [records, hsuited.not_isGrouped]
    rfl
  refine select_eq_ok_iff.mpr ⟨hfault, hpattern, _, hrecords, ?_⟩
  rw [hsuited.sorted_map, window_map, List.map_map]
  rfl

/-- A statement that selects anything is not faulty. -/
theorem select_ok {s : Statement Cell} {t : Table} {records : List (List Cell)}
    (h : s.select t = .ok records) : s.fault? t = none ∧ (s.suited t).hasLongPattern t = false := by
  obtain ⟨hfault, hpattern, -⟩ := select_eq_ok_iff.mp h
  exact ⟨hfault, hpattern⟩

section Names

variable {α : Type} {s : Statement α}

theorem column_mem_columnNames {c : Condition α} (hc : c ∈ s.conditions) :
    c.column ∈ s.columnNames := by
  have h : c.column ∈ s.conditions.map Condition.column := List.mem_map_of_mem hc
  simp only [columnNames, List.mem_append, h, or_true, true_or]

theorem key_mem_columnNames {branch : List (KeyTest α)} (hb : branch ∈ s.keyset.getD [])
    {k : KeyTest α} (hk : k ∈ branch) : k.key.name ∈ s.columnNames := by
  have h : k.key.name ∈
      (s.keyset.getD []).flatMap (fun branch => branch.map fun k => k.key.name) :=
    List.mem_flatMap.mpr ⟨branch, hb, List.mem_map_of_mem hk⟩
  simp only [columnNames, List.mem_append, h, or_true, true_or]

theorem output_mem_columnNames {o : Output} (ho : o ∈ s.output) {name : String}
    (hname : o.source? = some name) : name ∈ s.columnNames := by
  have h : name ∈ s.output.filterMap Output.source? := List.mem_filterMap.mpr ⟨o, ho, hname⟩
  simp only [columnNames, List.mem_append, h, true_or]

theorem group_mem_columnNames {name : String} (h : name ∈ s.groupBy) : name ∈ s.columnNames := by
  simp only [columnNames, List.mem_append, h, or_true, true_or]

theorem order_mem_columnNames {o : Term × Direction} (ho : o ∈ s.orderBy)
    (hlabel : s.labelIndex? o.1 = none) : o.1.name ∈ s.columnNames := by
  have h : o.1.name ∈
      (s.orderBy.filter fun o => (s.labelIndex? o.1).isNone).map fun o => o.1.name := by
    apply List.mem_map_of_mem (f := fun o : Term × Direction => o.1.name)
    rw [List.mem_filter, hlabel]
    exact ⟨ho, rfl⟩
  simp only [columnNames, List.mem_append, h, or_true]

theorem IsListing.order_mem_columnNames (hs : s.IsListing) {o : Term × Direction}
    (ho : o ∈ s.orderBy) : o.1.name ∈ s.columnNames :=
  Statement.order_mem_columnNames ho (hs.labelIndex? o.1)

end Names

section ReadAt

variable {s : Statement Cell} {t : Table} (hnames : ∀ name ∈ s.columnNames, t.stores name = true)
  (now : Int)

include hnames

theorem suitConditions_readAt : s.suitConditions { t with readAt := now } = s.suitConditions t := by
  rw [suitConditions_eq, suitConditions_eq]
  apply List.map_congr_left
  intro c hc
  rw [Table.affinity_readAt (hnames _ (column_mem_columnNames hc))]

theorem suited_readAt : s.suited { t with readAt := now } = s.suited t := by
  have hkeyset : s.keyset.map (suitBranches { t with readAt := now }) =
      s.keyset.map (suitBranches t) := by
    apply Option.map_congr
    intro branches hk
    apply List.map_congr_left
    intro branch hbranch
    apply List.map_congr_left
    intro k hkey
    have hmem : branch ∈ s.keyset.getD [] := by
      rw [Option.mem_def.mp hk]
      exact hbranch
    rw [Table.affinity_readAt (hnames _ (key_mem_columnNames hmem hkey))]
  rw [suited_eq, suited_eq, suitConditions_readAt hnames, hkeyset]

theorem keysetTruth_readAt {branches : List (List (KeyTest Cell))} (hk : s.keyset = some branches)
    (row : StoredRow) :
    keysetTruth (Table.termValue { t with readAt := now } row) branches =
      keysetTruth (t.termValue row) branches := by
  have hbranch : ∀ branch ∈ branches,
      branch.map (KeyTest.truth (Table.termValue { t with readAt := now } row)) =
        branch.map (KeyTest.truth (t.termValue row)) := by
    intro branch hbranch
    apply List.map_congr_left
    intro k hkey
    have hmem : branch ∈ s.keyset.getD [] := by
      rw [hk]
      exact hbranch
    have hname := key_mem_columnNames hmem hkey
    exact k.truth_congr (Table.value_readAt (hnames _ hname) now row)
  rw [keysetTruth, keysetTruth]
  exact congrArg Truth.any (List.map_congr_left fun b hb => congrArg Truth.all (hbranch b hb))

theorem truth_readAt (row : StoredRow) :
    s.truth { t with readAt := now } row = s.truth t row := by
  have hconditions : s.conditions.map (Condition.truth (Table.value { t with readAt := now } row)) =
      s.conditions.map (Condition.truth (t.value row)) := by
    apply List.map_congr_left
    intro c hc
    exact c.truth_congr (Table.value_readAt (hnames _ (column_mem_columnNames hc)) now row)
  rw [truth, truth, hconditions]
  apply congrArg (Truth.and _)
  cases hk : s.keyset with
  | none => rfl
  | some branches => exact keysetTruth_readAt hnames now hk row

theorem matching_readAt : s.matching { t with readAt := now } = s.matching t := by
  apply List.filter_congr
  intro row _
  rw [truth_readAt hnames]

theorem IsListing.sortedBy_readAt (hs : s.IsListing) (rows : List StoredRow) :
    Table.sortedBy { t with readAt := now } s.orderBy rows = t.sortedBy s.orderBy rows := by
  have hvalue (row : StoredRow) :
      s.orderBy.map (fun k => Table.termValue { t with readAt := now } row k.1) =
        s.orderBy.map fun k => t.termValue row k.1 := by
    apply List.map_congr_left
    intro k hk
    exact Table.value_readAt (hnames _ (hs.order_mem_columnNames hk)) now row
  simp only [Table.sortedBy, keyOrder, hvalue]

theorem IsListing.rows_readAt (hs : s.IsListing) : s.rows { t with readAt := now } = s.rows t := by
  have hsuited : ∀ name ∈ (s.suited t).columnNames, t.stores name = true := by
    rw [columnNames_suited]
    exact hnames
  rw [rows, rows, suited_readAt hnames, matching_readAt hsuited, hs.sortedBy_readAt hnames]

theorem IsListing.rowCells_readAt (hs : s.IsListing) :
    s.rowCells { t with readAt := now } = s.rowCells t := by
  funext row
  apply List.map_congr_left
  intro o ho
  have hlabel := hs.output_label o ho
  cases o with
  | aggregate function argument label => cases hlabel
  | column name => exact Table.value_readAt (hnames _ (output_mem_columnNames ho rfl)) now row

end ReadAt

theorem reservedWord?_eq_none_iff {α : Type} {s : Statement α} :
    s.reservedWord? = none ↔ Keyword.isReservedTable s.table = false ∧
      (∀ name ∈ s.columnNames, Keyword.isReservedColumn name = false) ∧
      ∀ name ∈ s.enclosedNames, Keyword.isWith name = false := by
  rw [reservedWord?, List.head?_eq_none_iff, List.append_eq_nil_iff, List.append_eq_nil_iff,
    List.filter_eq_nil_iff, List.filter_eq_nil_iff, List.filter_eq_nil_iff, List.forall_mem_singleton,
    and_assoc]
  simp only [Bool.not_eq_true]

/-- The statement and its patterns are no larger than they may be, and it is prepared in time. -/
structure IsWithinLimits (s : Statement Param) (timeoutMs : UInt64) : Prop where
  time : s.preparationMs < timeoutMs.toNat
  size : s.isTooLarge = false
  pattern : ∀ c ∈ s.conditions, (c.map Cell.ofParam).hasLongPattern = false

theorem fault?_eq_none {s : Statement Param} {t : Table} (hreserved : s.reservedWord? = none)
    (hsize : s.isTooLarge = false) (hnames : ∀ name ∈ s.columnNames, t.stores name = true) :
    (s.map Cell.ofParam).fault? t = none := by
  have hfind : (s.map Cell.ofParam).columnNames.find? (fun name => (t.source? name).isNone) = none := by
    rw [columnNames_map, List.find?_eq_none]
    intro name hname
    rw [Table.source?_isNone_of_stores (hnames name hname)]
    simp
  rw [fault?, hfind, reservedWord?_map, hreserved]
  show (if _ then _ else _) = none
  rw [isTooLarge_map, hsize]
  rfl

namespace IsWithinLimits

variable {s : Statement Param} {timeoutMs : UInt64} (hlimits : s.IsWithinLimits timeoutMs)

include hlimits

theorem fault?_eq_none {t : Table} (hreserved : s.reservedWord? = none)
    (hnames : ∀ name ∈ s.columnNames, t.stores name = true) (now : Int) :
    (s.map Cell.ofParam).fault? { t with readAt := now } = none :=
  Statement.fault?_eq_none hreserved hlimits.size fun name hname => by
    rw [Table.stores_readAt (hnames name hname)]

theorem hasLongPattern_eq_false (t : Table) (now : Int) :
    ((s.map Cell.ofParam).suited { t with readAt := now }).hasLongPattern { t with readAt := now } =
      false := by
  apply hasLongPattern_suited
  intro c hc
  obtain ⟨d, hd, rfl⟩ := List.mem_map.mp hc
  exact hlimits.pattern d hd

end IsWithinLimits

theorem reservedWord?_of_fault?_eq_none {s : Statement Param} {t : Table}
    (h : (s.map Cell.ofParam).fault? t = none) : s.reservedWord? = none := by
  rw [← reservedWord?_map Cell.ofParam]
  cases hword : (s.map Cell.ofParam).reservedWord? with
  | none => rfl
  | some word =>
    rw [fault?, hword] at h
    cases h

end Statement

/-- The store answers statements on a table of a name: a connection is free, and the table is there
and can be read to its end. -/
structure Store.Serves (store : Store) (name : String) (t : Table) : Prop where
  free : store.isFree = true
  readable : store.readable = true
  found : Schema.find? store.tables name = some t
  ends : t.slow = false

namespace Store

variable {store : Store} {t : Table} {s : Statement Param} {timeoutMs : UInt64} {now : Int}
  {columns : List OutputColumn}

theorem rows_select (hs : s.IsListing) (hnames : ∀ name ∈ s.columnNames, t.stores name = true)
    (hfault : (s.map Cell.ofParam).fault? { t with readAt := now } = none)
    (hpattern : ((s.map Cell.ofParam).suited { t with readAt := now }).hasLongPattern
      { t with readAt := now } = false) :
    (s.map Cell.ofParam).select { t with readAt := now } =
      .ok (((s.map Cell.ofParam).rows t).map (s.rowCells t)) := by
  have hcells := hs.map Cell.ofParam
  have hnamesCells : ∀ name ∈ (s.map Cell.ofParam).columnNames, t.stores name = true := by
    rw [Statement.columnNames_map]
    exact hnames
  rw [Statement.select_listing hcells hfault hpattern, hcells.rows_readAt hnamesCells,
    hcells.rowCells_readAt hnamesCells]
  rfl

/-- A store that answers shows what a statement selects that is prepared in time. -/
theorem fetch_eq_decodeRows {rows : List (List Cell)} (hstore : store.Serves s.table t)
    (htime : s.preparationMs < timeoutMs.toNat)
    (hselect : (s.map Cell.ofParam).select { t with readAt := now } = .ok rows) :
    store.fetch now timeoutMs s columns = decodeRows columns rows := by
  have htimeout : timeoutMs ≠ 0 := by
    rintro rfl
    exact absurd htime (Nat.not_lt_zero _)
  rw [fetch, if_neg (by simp [hstore.free]), if_neg (by simp [hstore.readable]), if_neg htimeout,
    hstore.found]
  simp only [hselect]
  rw [hstore.ends, Bool.false_or, if_neg (by simpa using htime)]

/-- A store that has brought anything answers for the table, and has shown what the statement selects in
time. -/
theorem fetch_eq_ok {records : List Row} (h : store.fetch now timeoutMs s columns = .ok records) :
    ∃ t rows, store.Serves s.table t ∧ s.preparationMs < timeoutMs.toNat ∧
      (s.map Cell.ofParam).select { t with readAt := now } = .ok rows ∧
      decodeRows columns rows = .ok records := by
  rw [fetch] at h
  split at h
  next => cases h
  next hfree =>
    split at h
    next => cases h
    next hreadable =>
      split at h
      next => cases h
      next =>
        split at h
        next => cases h
        next t hfound =>
          cases hselect : (s.map Cell.ofParam).select { t with readAt := now } with
          | error f =>
            simp only [hselect] at h
            cases h
          | ok rows =>
            simp only [hselect] at h
            split at h
            next => cases h
            next hends =>
              simp only [Bool.or_eq_true, decide_eq_true_eq, not_or] at hends
              have hserves : store.Serves s.table t :=
                ⟨by simpa using hfree, by simpa using hreadable, hfound, by simpa using hends.1⟩
              exact ⟨t, rows, hserves, by omega, hselect, h⟩

/-- What a listing brings, whenever it is run: the values of its result columns in its rows, as
records. -/
theorem fetch_listing (now : Int) (columns : List OutputColumn)
    (hstore : store.Serves s.table t) (hs : s.IsListing)
    (hreserved : s.reservedWord? = none) (hlimits : s.IsWithinLimits timeoutMs)
    (hnames : ∀ name ∈ s.columnNames, t.stores name = true) :
    store.fetch now timeoutMs s columns =
      decodeRows columns (((s.map Cell.ofParam).rows t).map (s.rowCells t)) :=
  fetch_eq_decodeRows hstore hlimits.time (rows_select hs hnames
    (hlimits.fault?_eq_none hreserved hnames now) (hlimits.hasLongPattern_eq_false t now))

/-- What a listing has brought where it brought anything: it used no reserved word, and its records
are those of its rows. -/
theorem fetch_listing_ok {records : List Row} (hfound : Schema.find? store.tables s.table = some t)
    (hs : s.IsListing) (hnames : ∀ name ∈ s.columnNames, t.stores name = true)
    (h : store.fetch now timeoutMs s columns = .ok records) :
    s.reservedWord? = none ∧
      decodeRows columns (((s.map Cell.ofParam).rows t).map (s.rowCells t)) = .ok records := by
  obtain ⟨t', rows, hstore, -, hselect, hdecoded⟩ := fetch_eq_ok h
  obtain rfl := Option.some_inj.mp (hfound.symm.trans hstore.found)
  obtain ⟨hfault, hpattern⟩ := Statement.select_ok hselect
  rw [rows_select hs hnames hfault hpattern] at hselect
  rw [← Except.ok.inj hselect] at hdecoded
  exact ⟨Statement.reservedWord?_of_fault?_eq_none hfault, hdecoded⟩

end Store

end CatalogQuery
