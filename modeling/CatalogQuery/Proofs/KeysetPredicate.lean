import CatalogQuery.Proofs.ListStatement
/-!
# Keyset predicates

The predicate made from ordering keys and the values of a cursor is true on just the rows whose keys
come strictly after these values in the order of the keys. Null comes before every value, and a
value that no row can have after it makes no branch.
-/
namespace CatalogQuery

open Std

namespace Cell

theorem eq_null_of_isNull {c : Cell} (h : c.isNull = true) : c = .null := by
  cases c with
  | null => rfl
  | integer | real | text | blob => cases h

theorem order_swap (a b : Cell) : a.order b = (b.order a).swap := OrientedCmp.eq_swap

theorem compareBy_eq_true {op : Comparison} {a b : Cell} :
    a.compareBy op b = some true ↔
      a.isNull = false ∧ b.isNull = false ∧ op.holds (a.order b) = true := by
  rw [compareBy]
  cases a.isNull <;> cases b.isNull <;> simp [Truth.unknown]

/-- What comes strictly after a value is not null. -/
theorem isNull_of_order_lt {a b : Cell} (h : a.order b = .lt) : b.isNull = false := by
  cases b with
  | null => cases a <;> simp [order, classRank, Nat.compare_eq_lt] at h
  | integer | real | text | blob => rfl

theorem isNull_of_order_eq {a b : Cell} (h : a.order b = .eq) : b.isNull = a.isNull := by
  cases ha : a.isNull with
  | true =>
    rw [eq_null_of_isNull ha] at h
    exact (order_null_eq b).mp h
  | false =>
    cases b with
    | null =>
      rw [order_swap, Ordering.swap_eq_eq] at h
      rw [(order_null_eq a).mp h] at ha
      cases ha
    | integer | real | text | blob => rfl

theorem orderIn_eq_eq {d : Direction} {a b : Cell} : orderIn d a b = .eq ↔ a.order b = .eq := by
  cases d with
  | asc => rfl
  | desc => rw [orderIn, order_swap, Ordering.swap_eq_eq]

end Cell

namespace OrderKey

/-- The truth of a test, with its value read as a stored one for its key. -/
def testTruth (cell : Term → Param → Cell) (value : Term → Cell) (test : KeyTest Param) : Truth :=
  (test.map (cell test.key)).truth value

variable {cell : Term → Param → Cell} {value : Term → Cell} {k : OrderKey} {v : Param}

theorem tied_of_ne_null (hv : v ≠ .null) : k.tied v = .equal k.term v := by
  cases v with
  | null => exact absurd rfl hv
  | text | integer | real | bool => rfl

theorem after_of_ne_null (hv : v ≠ .null) :
    k.after v = some (match k.direction with
      | .asc => .above k.term v
      | .desc => if k.nullable then .belowOrNull k.term v else .below k.term v) := by
  rw [after]
  · cases k.direction <;> rfl
  · exact hv

/-- The test for ties is true on the rows that have the value of the cursor in the order. -/
theorem tied_truth (hnull : (cell k.term v).isNull = true ↔ v = .null) :
    testTruth cell value (k.tied v) = some true ↔
      Cell.orderIn k.direction (cell k.term v) (value k.term) = .eq := by
  rw [Cell.orderIn_eq_eq]
  by_cases hv : v = .null
  · have hcell : cell k.term v = .null := Cell.eq_null_of_isNull (hnull.mpr hv)
    rw [hcell, Cell.order_null_eq, hv]
    exact Option.some_inj
  · rw [tied_of_ne_null hv]
    show (value k.term).compareBy .eq (cell k.term v) = some true ↔ _
    rw [Cell.compareBy_eq_true, Cell.order_swap (cell k.term v), Ordering.swap_eq_eq]
    constructor
    · rintro ⟨-, -, h⟩
      exact beq_iff_eq.mp h
    · intro h
      have hcell : (cell k.term v).isNull = false := by simpa using mt hnull.mp hv
      exact ⟨(Cell.isNull_of_order_eq h).symm.trans hcell, hcell, beq_iff_eq.mpr h⟩

/-- The test for what comes after is true on the rows that do. -/
theorem after_truth (hnull : (cell k.term v).isNull = true ↔ v = .null)
    (hvalue : k.nullable = false → (value k.term).isNull = false) :
    (∃ test, k.after v = some test ∧ testTruth cell value test = some true) ↔
      Cell.orderIn k.direction (cell k.term v) (value k.term) = .lt := by
  by_cases hv : v = .null
  · have hcell : cell k.term v = .null := Cell.eq_null_of_isNull (hnull.mpr hv)
    rw [hcell, hv]
    cases hd : k.direction with
    | asc =>
      simp only [after, hd, Option.some.injEq, exists_eq_left']
      show some (!(value k.term).isNull) = some true ↔ Cell.order .null (value k.term) = .lt
      rw [Cell.order_null_left, Option.some_inj, Bool.not_eq_true']
    | desc =>
      have hnone : k.after .null = none := by rw [after, hd]
      constructor
      · rintro ⟨test, htest, -⟩
        rw [hnone] at htest
        cases htest
      · intro h
        exact absurd (Cell.isNull_of_order_lt h) (by decide)
  · have hcell : (cell k.term v).isNull = false := by simpa using mt hnull.mp hv
    rw [after_of_ne_null hv]
    simp only [Option.some.injEq, exists_eq_left']
    cases hd : k.direction with
    | asc =>
      show (value k.term).compareBy .gt (cell k.term v) = some true ↔
        (cell k.term v).order (value k.term) = .lt
      rw [Cell.compareBy_eq_true, Cell.order_swap (cell k.term v), Ordering.swap_eq_lt]
      constructor
      · rintro ⟨-, -, h⟩
        exact beq_iff_eq.mp h
      · intro h
        have hlt : (cell k.term v).order (value k.term) = .lt := by
          rw [Cell.order_swap, h]
          rfl
        exact ⟨Cell.isNull_of_order_lt hlt, hcell, beq_iff_eq.mpr h⟩
    | desc =>
      have hbelow : (value k.term).isNull = false →
          ((value k.term).compareBy .lt (cell k.term v) = some true ↔
            (value k.term).order (cell k.term v) = .lt) := by
        intro h
        rw [Cell.compareBy_eq_true]
        exact ⟨fun hc => beq_iff_eq.mp hc.2.2, fun hlt => ⟨h, hcell, beq_iff_eq.mpr hlt⟩⟩
      cases hn : k.nullable with
      | false => exact hbelow (hvalue hn)
      | true =>
        show Truth.or ((value k.term).compareBy .lt (cell k.term v)) (some (value k.term).isNull) =
          some true ↔ (value k.term).order (cell k.term v) = .lt
        rw [Truth.or_eq_true, Option.some_inj]
        cases hnullValue : (value k.term).isNull with
        | false => simpa using hbelow hnullValue
        | true =>
          rw [Cell.eq_null_of_isNull hnullValue, Cell.order_null_left]
          simpa using hcell

end OrderKey

section Branches

variable {cell : Term → Param → Cell} {value : Term → Cell}

theorem keysetBranches_cons (ties : List (KeyTest Param)) (k : OrderKey) (v : Param)
    (rest : List (OrderKey × Param)) :
    keysetBranches ties ((k, v) :: rest) =
      (k.after v).toList.map (fun test => ties ++ [test]) ++
        keysetBranches (ties ++ [k.tied v]) rest := by
  rw [keysetBranches]
  cases k.after v <;> rfl

/-- One branch holds if the ties before it do, and then a key after them comes after its value while
the keys between are tied. -/
theorem exists_branch_iff (ties : List (KeyTest Param)) {kvs : List (OrderKey × Param)}
    (hnull : ∀ kv ∈ kvs, ((cell kv.1.term kv.2).isNull = true ↔ kv.2 = .null))
    (hvalue : ∀ kv ∈ kvs, kv.1.nullable = false → (value kv.1.term).isNull = false) :
    (∃ branch ∈ keysetBranches ties kvs, ∀ test ∈ branch,
        OrderKey.testTruth cell value test = some true) ↔
      (∀ test ∈ ties, OrderKey.testTruth cell value test = some true) ∧
        Statement.orderCells (kvs.map (·.1.direction)) (kvs.map fun kv => cell kv.1.term kv.2)
          (kvs.map fun kv => value kv.1.term) = .lt := by
  induction kvs generalizing ties with
  | nil => simp [keysetBranches, Statement.orderCells]
  | cons kv kvs ih =>
    obtain ⟨k, v⟩ := kv
    have hties := ih (ties ++ [k.tied v])
      (fun kv hkv => hnull kv (List.mem_cons_of_mem _ hkv))
      (fun kv hkv => hvalue kv (List.mem_cons_of_mem _ hkv))
    have htied : OrderKey.testTruth cell value (k.tied v) = some true ↔
        Cell.orderIn k.direction (cell k.term v) (value k.term) = .eq :=
      OrderKey.tied_truth (hnull (k, v) List.mem_cons_self)
    have hafter := OrderKey.after_truth (hnull (k, v) List.mem_cons_self)
      (hvalue (k, v) List.mem_cons_self)
    rw [List.map_cons, List.map_cons, List.map_cons, Statement.orderCells_cons,
      Ordering.then_eq_lt, ← hafter, ← htied, keysetBranches_cons]
    rw [List.forall_mem_append, List.forall_mem_singleton] at hties
    constructor
    · rintro ⟨branch, hbranch, htrue⟩
      rcases List.mem_append.mp hbranch with hbranch | hbranch
      · obtain ⟨test, htest, rfl⟩ := List.mem_map.mp hbranch
        rw [List.forall_mem_append, List.forall_mem_singleton] at htrue
        exact ⟨htrue.1, .inl ⟨test, Option.mem_toList.mp htest, htrue.2⟩⟩
      · obtain ⟨⟨hall, heq⟩, hlt⟩ := hties.mp ⟨branch, hbranch, htrue⟩
        exact ⟨hall, .inr ⟨heq, hlt⟩⟩
    · rintro ⟨hall, ⟨test, htest, htrue⟩ | ⟨heq, hlt⟩⟩
      · refine ⟨ties ++ [test], List.mem_append_left _ ?_, ?_⟩
        · exact List.mem_map_of_mem (Option.mem_toList.mpr htest)
        · rw [List.forall_mem_append, List.forall_mem_singleton]
          exact ⟨hall, htrue⟩
      · obtain ⟨branch, hbranch, htrue⟩ := hties.mpr ⟨⟨hall, heq⟩, hlt⟩
        exact ⟨branch, List.mem_append_right _ hbranch, htrue⟩

/-- The predicate is true on just the rows that come strictly after the values in the order of the
keys. -/
theorem keysetTruth_iff {kvs : List (OrderKey × Param)}
    (hnull : ∀ kv ∈ kvs, ((cell kv.1.term kv.2).isNull = true ↔ kv.2 = .null))
    (hvalue : ∀ kv ∈ kvs, kv.1.nullable = false → (value kv.1.term).isNull = false) :
    keysetTruth value ((keysetBranches [] kvs).map fun branch =>
        branch.map fun test => test.map (cell test.key)) = some true ↔
      Statement.orderCells (kvs.map (·.1.direction)) (kvs.map fun kv => cell kv.1.term kv.2)
        (kvs.map fun kv => value kv.1.term) = .lt := by
  have hbranches := exists_branch_iff [] hnull hvalue
  rw [keysetTruth, Truth.any_eq_true]
  simp only [List.mem_map, exists_exists_and_eq_and, Truth.all_eq_true, forall_exists_index, and_imp,
    forall_apply_eq_imp_iff₂]
  simpa [OrderKey.testTruth] using hbranches

end Branches

section Enclosed

theorem OrderKey.enclosedKey?_tied (k : OrderKey) (v : Param) : (k.tied v).enclosedKey? = none := by
  cases v <;> rfl

theorem OrderKey.key_tied (k : OrderKey) (v : Param) : (k.tied v).key = k.term := by
  cases v <;> rfl

theorem OrderKey.key_after {k : OrderKey} {v : Param} {test : KeyTest Param}
    (h : k.after v = some test) : test.key = k.term := by
  by_cases hv : v = .null
  · rw [hv, after] at h
    cases hd : k.direction with
    | asc => rw [hd] at h; cases h; rfl
    | desc => rw [hd] at h; cases h
  · rw [after_of_ne_null hv, Option.some_inj] at h
    subst h
    cases k.direction with
    | asc => rfl
    | desc => cases k.nullable <;> rfl

/-- The key is tested for null next to a value, which takes a parenthesis. -/
def OrderKey.isEnclosed (k : OrderKey) (v : Param) : Bool :=
  k.direction == .desc && k.nullable && v != .null

theorem OrderKey.enclosedKey?_after (k : OrderKey) (v : Param) :
    (k.after v).bind KeyTest.enclosedKey? = if k.isEnclosed v then some k.term else none := by
  rw [isEnclosed]
  by_cases hv : v = .null
  · rw [hv, after]
    cases k.direction <;> simp [KeyTest.enclosedKey?]
  · have hne : (v != .null) = true := by simpa using hv
    rw [after_of_ne_null hv, hne]
    cases k.direction <;> cases k.nullable <;> rfl

/-- All tests are tests of the keys. -/
theorem key_mem_keysetBranches {ties : List (KeyTest Param)} {kvs : List (OrderKey × Param)}
    {branch : List (KeyTest Param)} (hbranch : branch ∈ keysetBranches ties kvs)
    {test : KeyTest Param} (htest : test ∈ branch) :
    test ∈ ties ∨ ∃ kv ∈ kvs, kv.1.term = test.key := by
  induction kvs generalizing ties with
  | nil => cases hbranch
  | cons kv kvs ih =>
    obtain ⟨k, v⟩ := kv
    rw [keysetBranches_cons] at hbranch
    rcases List.mem_append.mp hbranch with hbranch | hbranch
    · obtain ⟨last, hlast, rfl⟩ := List.mem_map.mp hbranch
      rcases List.mem_append.mp htest with htest | htest
      · exact .inl htest
      · rw [List.mem_singleton.mp htest]
        exact .inr ⟨(k, v), List.mem_cons_self, (OrderKey.key_after (Option.mem_toList.mp hlast)).symm⟩
    · rcases ih hbranch with htest | ⟨kv, hkv, hkey⟩
      · rcases List.mem_append.mp htest with htest | htest
        · exact .inl htest
        · rw [List.mem_singleton.mp htest]
          exact .inr ⟨(k, v), List.mem_cons_self, (k.key_tied v).symm⟩
      · exact .inr ⟨kv, List.mem_cons_of_mem _ hkv, hkey⟩

/-- Every branch begins with the ties that come first. -/
theorem head?_keysetBranches {tie : KeyTest Param} {ties : List (KeyTest Param)}
    {kvs : List (OrderKey × Param)} {branch : List (KeyTest Param)}
    (hbranch : branch ∈ keysetBranches (tie :: ties) kvs) : branch.head? = some tie := by
  induction kvs generalizing ties with
  | nil => cases hbranch
  | cons kv kvs ih =>
    obtain ⟨k, v⟩ := kv
    rw [keysetBranches_cons] at hbranch
    rcases List.mem_append.mp hbranch with hbranch | hbranch
    · obtain ⟨last, -, rfl⟩ := List.mem_map.mp hbranch
      rfl
    · exact ih hbranch

/-- Every branch begins with a test of the first key. -/
theorem head_key_keysetBranches {k : OrderKey} {v : Param} {kvs : List (OrderKey × Param)}
    {branch : List (KeyTest Param)} (hbranch : branch ∈ keysetBranches [] ((k, v) :: kvs)) :
    branch.head?.map KeyTest.key = some k.term := by
  rw [keysetBranches_cons] at hbranch
  rcases List.mem_append.mp hbranch with hbranch | hbranch
  · obtain ⟨last, hlast, rfl⟩ := List.mem_map.mp hbranch
    exact congrArg some (OrderKey.key_after (Option.mem_toList.mp hlast))
  · rw [head?_keysetBranches hbranch]
    exact congrArg some (k.key_tied v)

/-- There is a branch if a row can come after the value of a key. -/
theorem keysetBranches_ne_nil (ties : List (KeyTest Param)) {kvs : List (OrderKey × Param)}
    {kv : OrderKey × Param} (hkv : kv ∈ kvs) (hafter : (kv.1.after kv.2).isSome = true) :
    keysetBranches ties kvs ≠ [] := by
  induction kvs generalizing ties with
  | nil => cases hkv
  | cons first kvs ih =>
    obtain ⟨k, v⟩ := first
    rw [keysetBranches_cons]
    intro hnil
    obtain ⟨hlast, hrest⟩ := List.append_eq_nil_iff.mp hnil
    rcases List.mem_cons.mp hkv with rfl | hkv
    · obtain ⟨test, htest⟩ := Option.isSome_iff_exists.mp hafter
      rw [htest] at hlast
      cases hlast
    · exact ih _ hkv hrest

/-- The tests that take a parenthesis are those of the enclosed keys. -/
theorem exists_enclosedKey?_iff (ties : List (KeyTest Param)) (kvs : List (OrderKey × Param))
    (key : Term) (hties : ∀ test ∈ ties, test.enclosedKey? = none) :
    (∃ branch ∈ keysetBranches ties kvs, ∃ test ∈ branch, test.enclosedKey? = some key) ↔
      ∃ kv ∈ kvs, kv.1.isEnclosed kv.2 = true ∧ kv.1.term = key := by
  induction kvs generalizing ties with
  | nil => simp [keysetBranches]
  | cons kv kvs ih =>
    obtain ⟨k, v⟩ := kv
    have hrest := ih (ties ++ [k.tied v]) (by
      rw [List.forall_mem_append, List.forall_mem_singleton]
      exact ⟨hties, k.enclosedKey?_tied v⟩)
    have hafter : (∃ test, k.after v = some test ∧ test.enclosedKey? = some key) ↔
        k.isEnclosed v = true ∧ k.term = key := by
      rw [← Option.bind_eq_some_iff, k.enclosedKey?_after v]
      cases k.isEnclosed v <;> simp
    simp only [List.mem_cons, exists_eq_or_imp]
    rw [← hafter, ← hrest, keysetBranches_cons]
    constructor
    · rintro ⟨branch, hbranch, test, htest, henclosed⟩
      rcases List.mem_append.mp hbranch with hbranch | hbranch
      · obtain ⟨last, hlast, rfl⟩ := List.mem_map.mp hbranch
        rcases List.mem_append.mp htest with htest | htest
        · rw [hties test htest] at henclosed
          cases henclosed
        · rw [List.mem_singleton.mp htest] at henclosed
          exact .inl ⟨last, Option.mem_toList.mp hlast, henclosed⟩
      · exact .inr ⟨branch, hbranch, test, htest, henclosed⟩
    · rintro (⟨test, htest, henclosed⟩ | ⟨branch, hbranch, test, htest, henclosed⟩)
      · refine ⟨ties ++ [test], List.mem_append_left _ ?_, test, ?_, henclosed⟩
        · exact List.mem_map_of_mem (Option.mem_toList.mpr htest)
        · exact List.mem_append_right _ (List.mem_singleton.mpr rfl)
      · exact ⟨branch, List.mem_append_right _ hbranch, test, htest, henclosed⟩

/-- Behind an opening parenthesis stand the first key and the keys that are tested for null next to
a value. -/
theorem Statement.mem_enclosedNames_iff {s : Statement Param} {kvs : List (OrderKey × Param)}
    {kv : OrderKey × Param} (hkeyset : s.keyset = some (keysetBranches [] kvs)) (hkv : kv ∈ kvs)
    (hafter : (kv.1.after kv.2).isSome = true) (name : String) :
    name ∈ s.enclosedNames ↔ kvs.head?.any (fun kv => kv.1.term.name == name) = true ∨
      ∃ kv ∈ kvs, kv.1.isEnclosed kv.2 = true ∧ kv.1.term.name = name := by
  cases kvs with
  | nil => cases hkv
  | cons first rest =>
    obtain ⟨k, v⟩ := first
    have hhead {branch : List (KeyTest Param)} (hbranch : branch ∈ keysetBranches [] ((k, v) :: rest)) :
        branch.head?.toList.map (fun k => k.key.name) = [k.term.name] := by
      obtain ⟨test, htest, hkey⟩ := Option.map_eq_some_iff.mp (head_key_keysetBranches hbranch)
      rw [htest, ← hkey]
      rfl
    have henclosed (key : Term) := exists_enclosedKey?_iff [] ((k, v) :: rest) key
      (List.forall_mem_nil _)
    rw [enclosedNames, hkeyset, Option.getD_some, List.mem_flatMap, List.head?_cons, Option.any_some,
      beq_iff_eq]
    constructor
    · rintro ⟨branch, hbranch, hname⟩
      rw [hhead hbranch] at hname
      rcases List.mem_append.mp hname with hname | hname
      · exact .inl (List.mem_singleton.mp hname).symm
      · obtain ⟨key, hkey, rfl⟩ := List.mem_map.mp hname
        obtain ⟨test, htest, henc⟩ := List.mem_filterMap.mp hkey
        obtain ⟨kv, hkv, hopens, rfl⟩ := (henclosed key).mp ⟨branch, hbranch, test, htest, henc⟩
        exact .inr ⟨kv, hkv, hopens, rfl⟩
    · rintro (hname | ⟨kv, hkv, hopens, rfl⟩)
      · obtain ⟨branch, hbranch⟩ :=
          List.exists_mem_of_ne_nil _ (keysetBranches_ne_nil [] hkv hafter)
        refine ⟨branch, hbranch, List.mem_append_left _ ?_⟩
        rw [hhead hbranch]
        exact List.mem_singleton.mpr hname.symm
      · obtain ⟨branch, hbranch, test, htest, henc⟩ := (henclosed kv.1.term).mpr ⟨kv, hkv, hopens, rfl⟩
        refine ⟨branch, hbranch, List.mem_append_right _ ?_⟩
        exact List.mem_map_of_mem (List.mem_filterMap.mpr ⟨test, htest, henc⟩)

end Enclosed

end CatalogQuery
