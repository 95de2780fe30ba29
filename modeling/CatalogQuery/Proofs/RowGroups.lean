import CatalogQuery.Proofs.ListStatement
import Mathlib.Data.List.Nodup
import Mathlib.Data.List.SplitBy
/-!
# Groups of rows

The groups of a statement part the rows that it is given: two rows are in one group just where they
agree in all that they are grouped by. Within a group the rows stay in the order of the table, whatever
the order in which the groups come.
-/
namespace CatalogQuery

open Std

/-- Where elements are the same just within one part, a part is found again in the whole. -/
theorem eq_filter_flatten {α : Type} {same : α → α → Bool} {parts : List (List α)}
    (hown : ∀ g ∈ parts, ∀ a ∈ g, ∀ b ∈ g, same a b = true)
    (hapart : parts.Pairwise fun g h => ∀ a ∈ g, ∀ b ∈ h, same a b = false ∧ same b a = false)
    {g : List α} (hg : g ∈ parts) {a : α} (ha : a ∈ g) : g = parts.flatten.filter (same a) := by
  obtain ⟨before, after, rfl⟩ := List.append_of_mem hg
  rw [List.pairwise_append, List.pairwise_cons] at hapart
  have hbefore : before.flatten.filter (same a) = [] := by
    rw [List.filter_eq_nil_iff]
    intro b hb
    obtain ⟨h, hh, hbh⟩ := List.mem_flatten.mp hb
    simp [(hapart.2.2 h hh g List.mem_cons_self b hbh a ha).2]
  have hafter : after.flatten.filter (same a) = [] := by
    rw [List.filter_eq_nil_iff]
    intro b hb
    obtain ⟨h, hh, hbh⟩ := List.mem_flatten.mp hb
    simp [(hapart.2.1.1 h hh a ha b hbh).1]
  have hsame : g.filter (same a) = g := List.filter_eq_self.mpr fun b hb => hown g hg a ha b hb
  rw [List.flatten_append, List.flatten_cons, List.filter_append, List.filter_append, hbefore,
    hsame, hafter, List.nil_append, List.append_nil]

section Blocks

variable {α : Type} (cmp : α → α → Ordering)

/-- The list sorted and cut where neighbours do not tie. -/
def blocks (xs : List α) : List (List α) :=
  (xs.mergeSort fun a b => cmp a b != .gt).splitBy fun a b => cmp a b == .eq

theorem flatten_blocks (xs : List α) :
    (blocks cmp xs).flatten = xs.mergeSort fun a b => cmp a b != .gt :=
  List.flatten_splitBy _ _

variable [TransCmp cmp] {cmp} {xs : List α} {g : List α}

theorem eq_of_mem_block (hg : g ∈ blocks cmp xs) {a b : α} (ha : a ∈ g) (hb : b ∈ g) :
    cmp a b = .eq := by
  have htrans : Trans (fun a b => cmp a b = .eq) (fun a b => cmp a b = .eq)
      (fun a b => cmp a b = .eq) := ⟨TransCmp.eq_trans⟩
  have hsymm : Symm fun a b => cmp a b = .eq := ⟨fun _ _ => OrientedCmp.eq_symm⟩
  have hchain : g.IsChain fun a b => cmp a b = .eq :=
    (List.isChain_of_mem_splitBy hg).imp fun a b hab => by simpa using hab
  exact hchain.pairwise.forall_of_forall (fun _ _ => ReflCmp.compare_self) ha hb

/-- The blocks come in their order. -/
theorem pairwise_blocks :
    (blocks cmp xs).Pairwise fun g h => ∀ a ∈ g, ∀ b ∈ h, cmp a b = .lt := by
  -- Neighbours among the blocks are in order, and do not tie where they meet.
  have hsorted : (blocks cmp xs).Pairwise fun g h => ∀ a ∈ g, ∀ b ∈ h, cmp a b ≠ .gt := by
    apply (List.pairwise_flatten.mp _).2
    rw [flatten_blocks]
    exact pairwise_mergeSort_notAfter cmp xs
  have hmeet := List.isChain_getLast_head_splitBy (fun a b => cmp a b == .eq)
    (xs.mergeSort fun a b => cmp a b != .gt)
  let before (g h : List α) : Prop := g ≠ [] ∧ h ≠ [] ∧ ∀ a ∈ g, ∀ b ∈ h, cmp a b = .lt
  have htrans : Trans before before before := by
    refine ⟨fun {f g h} hfg hgh => ⟨hfg.1, hgh.2.1, fun a ha c hc => ?_⟩⟩
    obtain ⟨b, hb⟩ := List.exists_mem_of_ne_nil g hfg.2.1
    exact TransCmp.lt_trans (hfg.2.2 a ha b hb) (hgh.2.2 b hb c hc)
  have hchain : (blocks cmp xs).IsChain before := by
    rw [List.isChain_iff_getElem]
    intro i hi
    obtain ⟨hg, hh, hne⟩ := hmeet.getElem i hi
    refine ⟨hg, hh, fun a ha b hb => ?_⟩
    have hlast := List.getLast_mem hg
    have hhead := List.head_mem hh
    have hle := List.pairwise_iff_getElem.mp hsorted i (i + 1) (by omega) hi (by omega) _ hlast _ hhead
    have hlt : cmp ((blocks cmp xs)[i].getLast hg) ((blocks cmp xs)[i + 1].head hh) = .lt :=
      (Ordering.isLE_iff_eq_lt_or_eq_eq.mp (Ordering.isLE_iff_ne_gt.mpr hle)).resolve_right
        (by simpa using hne)
    have hab := TransCmp.lt_of_eq_of_lt (eq_of_mem_block (List.getElem_mem _) ha hlast) hlt
    exact TransCmp.lt_of_lt_of_eq hab (eq_of_mem_block (List.getElem_mem _) hhead hb)
  exact hchain.pairwise.imp fun h => h.2.2

/-- A block has all elements that tie with one of its own, in the order in which they were. -/
theorem block_eq_filter (hg : g ∈ blocks cmp xs) {a : α} (ha : a ∈ g) :
    g = xs.filter fun b => cmp a b == .eq := by
  rw [← filter_mergeSort_notAfter cmp, ← flatten_blocks]
  apply eq_filter_flatten _ _ hg ha
  · intro h hh a ha b hb
    rw [eq_of_mem_block hh ha hb]
    rfl
  · refine pairwise_blocks.imp fun hgh a ha b hb => ?_
    rw [hgh a ha b hb, OrientedCmp.gt_of_lt (hgh a ha b hb)]
    exact ⟨rfl, rfl⟩

end Blocks

/-- Both have values of one place under each of the names. -/
def agreesOn (names : List String) (a b : String → Cell) : Bool :=
  names.all fun name => (a name).order (b name) == .eq

theorem agreesOn_iff {names : List String} {a b : String → Cell} :
    agreesOn names a b = true ↔ ∀ name ∈ names, (a name).order (b name) = .eq := by
  simp [agreesOn]

theorem agreesOn_self (names : List String) (a : String → Cell) : agreesOn names a a = true :=
  agreesOn_iff.mpr fun _ _ => ReflCmp.compare_self

theorem agreesOn_comm (names : List String) (a b : String → Cell) :
    agreesOn names a b = agreesOn names b a := by
  apply Bool.eq_iff_iff.mpr
  rw [agreesOn_iff, agreesOn_iff]
  exact forall₂_congr fun _ _ => OrientedCmp.eq_comm

/-- The groups part the rows by what stands under the names: a group has all rows that agree with one of
its own, as they were, and no row agrees with one of another group. Without names all rows are one group,
even where there are none. -/
structure Parts (names : List String) (t : Table) (rows : List StoredRow)
    (groups : List (List StoredRow)) : Prop where
  eq_filter : ∀ g ∈ groups, ∀ a ∈ g, g = rows.filter fun b => agreesOn names (t.value a) (t.value b)
  covers : ∀ row ∈ rows, ∃ g ∈ groups, row ∈ g
  apart : groups.Pairwise fun g h =>
    ∀ a ∈ g, ∀ b ∈ h, agreesOn names (t.value a) (t.value b) = false
  ne_nil : names ≠ [] → [] ∉ groups
  whole : names = [] → groups = [rows]

theorem Parts.subset {names : List String} {t : Table} {rows : List StoredRow}
    {groups : List (List StoredRow)} (h : Parts names t rows groups) {g : List StoredRow}
    (hg : g ∈ groups) {row : StoredRow} (hrow : row ∈ g) : row ∈ rows := by
  have hmem := hrow
  rw [h.eq_filter g hg row hrow] at hmem
  exact (List.mem_filter.mp hmem).1

theorem Parts.of_perm {names : List String} {t : Table} {rows : List StoredRow}
    {groups groups' : List (List StoredRow)} (h : Parts names t rows groups)
    (hperm : groups.Perm groups') : Parts names t rows groups' where
  eq_filter := fun g hg => h.eq_filter g (hperm.mem_iff.mpr hg)
  covers := by
    intro row hrow
    obtain ⟨g, hg, hmem⟩ := h.covers row hrow
    exact ⟨g, hperm.mem_iff.mp hg, hmem⟩
  apart := by
    refine hperm.pairwise h.apart fun hgh b hb a ha => ?_
    rw [agreesOn_comm]
    exact hgh a ha b hb
  ne_nil := fun hnames hnil => h.ne_nil hnames (hperm.mem_iff.mpr hnil)
  whole := by
    intro hnames
    rw [h.whole hnames] at hperm
    exact List.perm_singleton.mp hperm.symm

/-- Rows of which no two agree are one group each. -/
theorem parts_map_singleton {names : List String} {t : Table} {rows : List StoredRow}
    (hnames : names ≠ [])
    (hrows : rows.Pairwise fun a b => agreesOn names (t.value a) (t.value b) = false) :
    Parts names t rows (rows.map fun row => [row]) where
  eq_filter := by
    intro g hg a ha
    have hflatten : (rows.map fun row => [row]).flatten = rows := by
      rw [← List.flatMap_def, List.flatMap_singleton']
    have hown : ∀ g ∈ rows.map fun row => [row], ∀ a ∈ g, ∀ b ∈ g,
        agreesOn names (t.value a) (t.value b) = true := by
      intro g hg a ha b hb
      obtain ⟨row, -, rfl⟩ := List.mem_map.mp hg
      rw [List.mem_singleton.mp ha, List.mem_singleton.mp hb]
      exact agreesOn_self names _
    rw [← hflatten]
    apply eq_filter_flatten hown _ hg ha
    rw [List.pairwise_map]
    refine hrows.imp fun {row row'} hab a ha b hb => ?_
    rw [List.mem_singleton.mp ha, List.mem_singleton.mp hb]
    exact ⟨hab, (agreesOn_comm ..).trans hab⟩
  covers := fun row hrow => ⟨[row], List.mem_map_of_mem hrow, List.mem_singleton_self row⟩
  apart := by
    rw [List.pairwise_map]
    refine hrows.imp fun hab a ha b hb => ?_
    rw [List.mem_singleton.mp ha, List.mem_singleton.mp hb]
    exact hab
  ne_nil := by simp
  whole := fun h => absurd h hnames

namespace Table

theorem mem_numberedRows {t : Table} {row : StoredRow} (h : row ∈ t.numberedRows) :
    row.number ≤ t.rows.length ∧ t.rows[row.number - 1]? = some row.cells := by
  obtain ⟨⟨cells, i⟩, hi, rfl⟩ := List.mem_map.mp h
  have hget := List.mem_zipIdx_iff_getElem?.mp hi
  exact ⟨(List.getElem?_eq_some_iff.mp hget).1, hget⟩

/-- Under the name of the row number no two rows agree. -/
theorem eq_of_order_rowNumber {t : Table} (hrows : t.rows.length < pow2 63) {name : String}
    (hname : t.source? name = some .rowNumber) {a b : StoredRow} (ha : a ∈ t.numberedRows)
    (hb : b ∈ t.numberedRows) (h : (t.value a name).order (t.value b name) = .eq) : a = b := by
  obtain ⟨hacount, hacells⟩ := mem_numberedRows ha
  obtain ⟨hbcount, hbcells⟩ := mem_numberedRows hb
  have hnumber (row : StoredRow) : t.value row name = .integer (.ofNat row.number) := by
    rw [value, hname]
    rfl
  have hpow : pow2 63 = 2 ^ 63 := rfl
  have htoInt (n : Nat) (hn : n ≤ t.rows.length) : (Int64.ofNat n).toInt = n :=
    Int64.toInt_ofNat_of_lt (by omega)
  rw [hnumber, hnumber, Cell.order, htoInt _ hacount, htoInt _ hbcount, Int.compare_eq_eq] at h
  have hsame : a.number = b.number := by omega
  rw [hsame, hbcells] at hacells
  cases a
  cases b
  simp_all

theorem nodup_numberedRows (t : Table) : t.numberedRows.Nodup := by
  have hnumbers : t.numberedRows.map (·.number) = (List.range' 0 t.rows.length).map (· + 1) := by
    rw [numberedRows, List.map_map, ← List.zipIdx_map_snd 0 t.rows, List.map_map]
    rfl
  apply List.Nodup.of_map (·.number)
  rw [hnumbers]
  exact List.Nodup.map (fun _ _ h => Nat.succ.inj h) List.nodup_range'

end Table

namespace Statement

variable (s : Statement Cell) (t : Table)

theorem length_groupDirections : s.groupDirections.length = s.groupBy.length := by
  rw [groupDirections]
  split
  next h => rw [List.length_map, h]
  next => rw [List.length_map]

theorem orderGroups_eq_keyOrder (a b : StoredRow) :
    s.orderGroups t a b =
      keyOrder ((s.groupBy.map Term.column).zip s.groupDirections) (t.termValue a) (t.termValue b) := by
  have hlength := s.length_groupDirections
  have hkey (row : StoredRow) :
      ((s.groupBy.map Term.column).zip s.groupDirections).map (fun k => t.termValue row k.1) =
        s.groupKey t row := by
    have hcomp : (fun k : Term × Direction => t.termValue row k.1) = t.termValue row ∘ Prod.fst := rfl
    rw [hcomp, ← List.map_map, List.map_fst_zip (by simp [hlength]), List.map_map]
    rfl
  rw [keyOrder, hkey, hkey, List.map_snd_zip (by simp [hlength]), orderGroups]

instance : TransCmp (s.orderGroups t) := by
  have h : s.orderGroups t = fun a b =>
      keyOrder ((s.groupBy.map Term.column).zip s.groupDirections) (t.termValue a) (t.termValue b) := by
    funext a b
    exact s.orderGroups_eq_keyOrder t a b
  rw [h]
  infer_instance

theorem orderGroups_eq_eq {a b : StoredRow} :
    s.orderGroups t a b = .eq ↔ agreesOn s.groupBy (t.value a) (t.value b) = true := by
  have hlength := s.length_groupDirections
  rw [orderGroups_eq_keyOrder, keyOrder_eq_eq, agreesOn_iff]
  constructor
  · intro h name hname
    obtain ⟨i, hi, rfl⟩ := List.getElem_of_mem hname
    have hk : (.column s.groupBy[i], s.groupDirections[i]) ∈
        (s.groupBy.map Term.column).zip s.groupDirections := by
      rw [List.mem_iff_getElem]
      exact ⟨i, by simp [hlength, hi], by simp⟩
    simpa only [Table.termValue, Term.name] using h _ hk
  · intro h k hk
    obtain ⟨name, hname, hterm⟩ := List.mem_map.mp (List.of_mem_zip hk).1
    rw [← hterm]
    exact h name hname

/-- The groups of a statement part the rows by what they are grouped by. -/
theorem parts_groups {rows : List StoredRow} (hrows : rows.Sublist t.numberedRows)
    (hcount : t.rows.length < pow2 63) : Parts s.groupBy t rows (s.groups t rows) := by
  have hties (a : StoredRow) : (fun b => s.orderGroups t a b == .eq) =
      fun b => agreesOn s.groupBy (t.value a) (t.value b) := by
    funext b
    rw [Bool.eq_iff_iff, beq_iff_eq, orderGroups_eq_eq]
  rw [groups]
  split
  next hnil =>
    rw [List.isEmpty_iff.mp hnil]
    exact
      { eq_filter := fun g hg a ha => by simp_all [agreesOn]
        covers := fun row hrow => ⟨rows, List.mem_singleton_self rows, hrow⟩
        apart := List.pairwise_singleton _ _
        ne_nil := fun h => absurd rfl h
        whole := fun _ => rfl }
  next hsome =>
    have hnames : s.groupBy ≠ [] := by simpa using hsome
    split
    next hnumber =>
      -- The row number is among the names: every row is a group of its own.
      apply parts_map_singleton hnames
      obtain ⟨name, hname, hsource⟩ := List.any_eq_true.mp (Bool.and_eq_true_iff.mp hnumber).1
      refine ((t.nodup_numberedRows.sublist hrows).imp_of_mem fun ha hb hne => ?_)
      rw [← Bool.not_eq_true]
      intro hagree
      exact hne (Table.eq_of_order_rowNumber hcount (by simpa using hsource) (hrows.subset ha)
        (hrows.subset hb) (agreesOn_iff.mp hagree name hname))
    next =>
      exact
        { eq_filter := by
            intro g hg a ha
            rw [← hties]
            exact block_eq_filter hg ha
          covers := by
            intro row hrow
            have hmem : row ∈ (blocks (s.orderGroups t) rows).flatten := by
              rw [flatten_blocks, List.mem_mergeSort]
              exact hrow
            obtain ⟨g, hg, hr⟩ := List.mem_flatten.mp hmem
            exact ⟨g, hg, hr⟩
          apart := by
            have hblocks : (blocks (s.orderGroups t) rows).Pairwise fun g h =>
                ∀ a ∈ g, ∀ b ∈ h, s.orderGroups t a b = .lt := pairwise_blocks
            refine hblocks.imp fun hgh a ha b hb => ?_
            rw [← Bool.not_eq_true, ← orderGroups_eq_eq, hgh a ha b hb]
            decide
          ne_nil := fun _ => List.nil_notMem_splitBy _ _
          whole := fun h => absurd h hnames }

end Statement

end CatalogQuery
