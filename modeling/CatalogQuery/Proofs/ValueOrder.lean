import CatalogQuery.Store.Select
/-!
# The order of stored values

The order of all stored values is a total preorder, and so is the order of rows by a list of keys.
Two different values can stand at the same place: an integer and the real number of the same value,
or the two zeros.
-/
namespace CatalogQuery

open Std

theorem pow2_pos (n : Nat) : 0 < pow2 n := Nat.two_pow_pos n

theorem Bytes.order_eq_compareLex (as bs : List UInt8) :
    Bytes.order as bs = List.compareLex (compareOn UInt8.toNat) as bs := by
  induction as generalizing bs with
  | nil => cases bs <;> rfl
  | cons a as ih =>
    cases bs with
    | nil => rfl
    | cons b bs => rw [Bytes.order, List.compareLex_cons_cons, ih, compareOn]

instance : TransCmp Bytes.order := by
  have h : Bytes.order = List.compareLex (compareOn UInt8.toNat) := by
    funext as bs
    exact Bytes.order_eq_compareLex as bs
  rw [h]
  infer_instance

namespace Cell

/-- The value of a number in the scale of floating-point numbers. -/
def scaledNumber : Cell → Int
  | .integer n => Binary64.scaleInt n.toInt
  | .real x => x.scaled
  | _ => 0

def textPart : Cell → String
  | .text s => s
  | _ => ""

def blobPart : Cell → List UInt8
  | .blob bytes => bytes
  | _ => []

theorem compare_mul_right {c : Int} (hc : 0 < c) (a b : Int) :
    compare (a * c) (b * c) = compare a b := by
  rcases Int.lt_trichotomy a b with h | h | h
  · rw [Int.compare_eq_lt.mpr h]
    exact Int.compare_eq_lt.mpr (Int.mul_lt_mul_of_pos_right h hc)
  · subst h
    rw [Int.compare_eq_eq.mpr rfl, Int.compare_eq_eq.mpr rfl]
  · rw [Int.compare_eq_gt.mpr h]
    exact Int.compare_eq_gt.mpr (Int.mul_lt_mul_of_pos_right h hc)

theorem compare_scaleInt (a b : Int) :
    compare (Binary64.scaleInt a) (Binary64.scaleInt b) = compare a b :=
  compare_mul_right (Int.natCast_pos.mpr (pow2_pos _)) a b

/-- The class decides first, and within a class the part of the value that the class has. -/
theorem order_eq_parts (a b : Cell) :
    a.order b = compareLex (compareOn classRank) (compareLex (compareOn scaledNumber)
      (compareLex (compareOn textPart) fun a b => Bytes.order a.blobPart b.blobPart)) a b := by
  cases a <;> cases b <;>
    simp [order, compareLex, compareOn, classRank, scaledNumber, textPart, blobPart,
      compare_scaleInt, Bytes.order]
  -- Where the classes differ, their ranks are two numerals.
  all_goals rfl

instance : TransCmp order := by
  have hb : TransCmp fun a b : Cell => Bytes.order a.blobPart b.blobPart :=
    { eq_swap := OrientedCmp.eq_swap
      isLE_trans := TransCmp.isLE_trans }
  have h : order = compareLex (compareOn classRank) (compareLex (compareOn scaledNumber)
      (compareLex (compareOn textPart) fun a b => Bytes.order a.blobPart b.blobPart)) := by
    funext a b
    exact order_eq_parts a b
  rw [h]
  infer_instance

theorem order_null_left (c : Cell) : order .null c = .lt ↔ c.isNull = false := by
  cases c <;> simp [order, classRank, isNull, Nat.compare_eq_lt]

theorem order_null_eq (c : Cell) : order .null c = .eq ↔ c.isNull = true := by
  cases c <;> simp [order, classRank, isNull]

def orderIn : Direction → Cell → Cell → Ordering
  | .asc, a, b => a.order b
  | .desc, a, b => b.order a

instance (d : Direction) : TransCmp (orderIn d) := by
  cases d with
  | asc => exact inferInstanceAs (TransCmp order)
  | desc => exact inferInstanceAs (TransCmp fun a b => order b a)

end Cell

/-- The order of two rows by a list of keys, given the values of the keys in both. -/
def keyOrder (keys : List (Term × Direction)) (a b : Term → Cell) : Ordering :=
  Statement.orderCells (keys.map (·.2)) (keys.map fun k => a k.1) (keys.map fun k => b k.1)

theorem Statement.orderCells_cons (d : Direction) (ds : List Direction) (a b : Cell)
    (as bs : List Cell) :
    orderCells (d :: ds) (a :: as) (b :: bs) =
      (Cell.orderIn d a b).then (orderCells ds as bs) := by
  cases d <;> rfl

@[simp] theorem keyOrder_nil (a b : Term → Cell) : keyOrder [] a b = .eq := rfl

@[simp] theorem keyOrder_cons (k : Term × Direction) (keys : List (Term × Direction))
    (a b : Term → Cell) :
    keyOrder (k :: keys) a b = (Cell.orderIn k.2 (a k.1) (b k.1)).then (keyOrder keys a b) := by
  rw [keyOrder, List.map_cons, List.map_cons, List.map_cons, Statement.orderCells_cons]
  rfl

/-- The order by keys that are made from a list, one element after the other. -/
theorem keyOrder_map_eq_foldr {α : Type} {key : α → Term × Direction} (xs : List α)
    {a b : Term → Cell} {va vb : α → Cell} (ha : ∀ x ∈ xs, a (key x).1 = va x)
    (hb : ∀ x ∈ xs, b (key x).1 = vb x) :
    keyOrder (xs.map key) a b =
      xs.foldr (fun x rest => (Cell.orderIn (key x).2 (va x) (vb x)).then rest) .eq := by
  induction xs with
  | nil => rfl
  | cons x xs ih =>
    rw [List.map_cons, keyOrder_cons, ha x List.mem_cons_self, hb x List.mem_cons_self,
      ih (fun y hy => ha y (List.mem_cons_of_mem _ hy)) fun y hy => hb y (List.mem_cons_of_mem _ hy)]
    rfl

instance (keys : List (Term × Direction)) : TransCmp (keyOrder keys) := by
  induction keys with
  | nil =>
    exact { eq_swap := rfl, isLE_trans := fun _ _ => rfl }
  | cons k keys ih =>
    have hk : TransCmp fun a b : Term → Cell => Cell.orderIn k.2 (a k.1) (b k.1) :=
      { eq_swap := OrientedCmp.eq_swap
        isLE_trans := TransCmp.isLE_trans }
    have h : keyOrder (k :: keys) =
        compareLex (fun a b => Cell.orderIn k.2 (a k.1) (b k.1)) (keyOrder keys) := by
      funext a b
      exact keyOrder_cons k keys a b
    rw [h]
    infer_instance

/-- Two rows tie where they have values of one place under each of the keys. -/
theorem keyOrder_eq_eq {keys : List (Term × Direction)} {a b : Term → Cell} :
    keyOrder keys a b = .eq ↔ ∀ k ∈ keys, (a k.1).order (b k.1) = .eq := by
  induction keys with
  | nil => simp
  | cons k keys ih =>
    have hk : Cell.orderIn k.2 (a k.1) (b k.1) = .eq ↔ (a k.1).order (b k.1) = .eq := by
      cases k.2 with
      | asc => rfl
      | desc => exact OrientedCmp.eq_comm
    rw [keyOrder_cons, Ordering.then_eq_eq, hk, ih, List.forall_mem_cons]

/-- Two rows that differ in one of the keys do not tie. -/
theorem keyOrder_ne_eq {keys : List (Term × Direction)} {a b : Term → Cell}
    {k : Term × Direction} (hk : k ∈ keys) (h : (a k.1).order (b k.1) ≠ .eq) :
    keyOrder keys a b ≠ .eq := by
  rw [Ne, keyOrder_eq_eq]
  exact fun hall => h (hall k hk)

section Sorted

variable {α : Type} (cmp : α → α → Ordering) [TransCmp cmp]

theorem notAfter_trans (a b c : α) (hab : (cmp a b != .gt) = true) (hbc : (cmp b c != .gt) = true) :
    (cmp a c != .gt) = true := by
  simp only [bne_iff_ne, ne_eq, ← Ordering.isLE_iff_ne_gt] at hab hbc ⊢
  exact TransCmp.isLE_trans hab hbc

theorem notAfter_total (a b : α) : (cmp a b != .gt || cmp b a != .gt) = true := by
  have hswap : cmp b a = (cmp a b).swap := OrientedCmp.eq_swap
  rw [hswap]
  cases cmp a b <;> rfl

theorem pairwise_mergeSort_notAfter (xs : List α) :
    (xs.mergeSort fun a b => cmp a b != .gt).Pairwise fun a b => cmp a b ≠ .gt :=
  (List.pairwise_mergeSort (notAfter_trans cmp) (notAfter_total cmp) xs).imp fun hab => by
    simpa using hab

/-- A sort leaves the elements that tie with one in their order. -/
theorem filter_mergeSort_notAfter (a : α) (xs : List α) :
    (xs.mergeSort fun a b => cmp a b != .gt).filter (fun b => cmp a b == .eq) =
      xs.filter fun b => cmp a b == .eq := by
  have hties : (xs.filter fun b => cmp a b == .eq).Pairwise fun b c => (cmp b c != .gt) = true := by
    apply List.pairwise_of_forall_mem_list
    intro b hb c hc
    have hab : cmp a b = .eq := by simpa using (List.mem_filter.mp hb).2
    have hac : cmp a c = .eq := by simpa using (List.mem_filter.mp hc).2
    have hbc : cmp b c = .eq := TransCmp.eq_trans (OrientedCmp.eq_symm hab) hac
    rw [hbc]
    rfl
  have hsublist := (List.sublist_mergeSort (notAfter_trans cmp) (notAfter_total cmp) hties
    List.filter_sublist).filter fun b => cmp a b == .eq
  rw [List.filter_filter] at hsublist
  simp only [Bool.and_self] at hsublist
  exact (hsublist.eq_of_length ((List.mergeSort_perm _ _).filter _).length_eq.symm).symm

end Sorted

end CatalogQuery
