import CatalogQuery.Proofs.RoundedIntegers
import CatalogQuery.Proofs.Selection
import Mathlib.Algebra.Order.Field.Rat
import Mathlib.Algebra.Order.Ring.Cast
import Mathlib.Order.Compare
/-!
# Bounds of numbers

Two bounds of one kind are ordered by their exact values. An integer and a floating-point number
are not: the integer is rounded first, and if it is rounded to the other the two count as equal,
whichever is the greater. The store, which compares what is bound exactly, can then find the low
bound above the high one.
-/
namespace CatalogQuery

def Binary64.value (x : Binary64) : ℚ := x.scaled / pow2 scaleExponent

/-- The numbers that a JSON text is read as. -/
def Json.IsNumber : Json → Prop
  | .int n => minInt64 ≤ n ∧ n < pow2 64
  | .real x => x.isFinite = true
  | _ => False

namespace Scalar

def IsNumber : Scalar → Prop
  | .integer _ => True
  | .real x => x.isFinite = true
  | _ => False

def value : Scalar → ℚ
  | .integer n => n.toInt
  | .real x => x.value
  | _ => 0

def isInteger : Scalar → Bool
  | .integer _ => true
  | _ => false

/-- The exact value of a number as a multiple of the smallest positive one. -/
def scaled : Scalar → Int
  | .integer n => Binary64.scaleInt n.toInt
  | .real x => x.scaled
  | _ => 0

/-- The same with an integer rounded, as integers are compared with floating-point numbers. -/
def rounded : Scalar → Int
  | .integer n => (Binary64.ofInt n.toInt).scaled
  | .real x => x.scaled
  | _ => 0

/-- One of two numbers is an integer that is rounded to the other. -/
def TiesByRounding (a b : Scalar) : Prop := a.isInteger ≠ b.isInteger ∧ a.rounded = b.rounded

instance (a b : Scalar) : Decidable (a.TiesByRounding b) := inferInstanceAs (Decidable (_ ∧ _))

/-- The scalar is no integer beyond two to the power of 53. -/
def FitsSignificand : Scalar → Prop
  | .integer n => n.toInt.natAbs ≤ pow2 53
  | _ => True

theorem exists_of_isInteger {a : Scalar} (h : a.isInteger = true) : ∃ n, a = .integer n := by
  cases a with
  | integer n => exact ⟨n, rfl⟩
  | real | text | bool | timestamp => cases h

theorem pow2_scale_pos : (0 : ℚ) < pow2 Binary64.scaleExponent :=
  Nat.cast_pos.mpr (pow2_pos _)

theorem value_eq (a : Scalar) : a.value = a.scaled / pow2 Binary64.scaleExponent := by
  cases a with
  | integer n =>
    show (n.toInt : ℚ) = (Binary64.scaleInt n.toInt : Int) / _
    rw [Binary64.scaleInt, Int.cast_mul, Int.cast_natCast,
      mul_div_cancel_right₀ _ pow2_scale_pos.ne']
  | real x => rfl
  | text | bool | timestamp => exact (zero_div _).symm

theorem value_lt_iff (a b : Scalar) : a.value < b.value ↔ a.scaled < b.scaled := by
  rw [value_eq, value_eq, div_lt_div_iff_of_pos_right pow2_scale_pos, Int.cast_lt]

theorem compare_value (a b : Scalar) : compare a.value b.value = compare a.scaled b.scaled := by
  rcases lt_trichotomy a.scaled b.scaled with h | h | h
  · rw [compare_lt_iff_lt.mpr h, compare_lt_iff_lt.mpr ((value_lt_iff a b).mpr h)]
  · rw [value_eq, value_eq, h, compare_eq_iff_eq.mpr rfl, compare_eq_iff_eq.mpr rfl]
  · rw [compare_gt_iff_gt.mpr h, compare_gt_iff_gt.mpr ((value_lt_iff b a).mpr h)]

theorem ofParam_real {x : Binary64} (h : x.isFinite = true) :
    Cell.ofParam (.ofScalar (.real x)) = .real x := by
  rw [Param.ofScalar, Cell.ofParam, Binary64.not_isNaN_of_isFinite h]
  rfl

theorem rounded_eq_scaled {a : Scalar} (h : a.FitsSignificand) : a.rounded = a.scaled := by
  cases a with
  | integer n => exact Binary64.scaled_ofInt_eq h
  | real | text | bool | timestamp => rfl

/-- Integers that fit the significand are rounded to no other value. -/
theorem value_eq_of_tiesByRounding {a b : Scalar} (ha : a.FitsSignificand) (hb : b.FitsSignificand)
    (h : a.TiesByRounding b) : a.value = b.value := by
  rw [value_eq, value_eq, ← rounded_eq_scaled ha, h.2, rounded_eq_scaled hb]

/-- The store orders numbers by their exact values. -/
theorem order_ofScalar {a b : Scalar} (ha : a.IsNumber) (hb : b.IsNumber) :
    (Cell.ofParam (.ofScalar a)).order (Cell.ofParam (.ofScalar b)) = compare a.value b.value := by
  rw [compare_value]
  cases a with
  | integer m =>
    cases b with
    | integer n => exact (Cell.compare_scaleInt m.toInt n.toInt).symm
    | real y => rw [ofParam_real hb]; rfl
    | text | bool | timestamp => exact hb.elim
  | real x =>
    rw [ofParam_real ha]
    cases b with
    | integer n => rfl
    | real y => rw [ofParam_real hb]; rfl
    | text | bool | timestamp => exact hb.elim
  | text | bool | timestamp => exact ha.elim

/-- Where rounding does not make an integer equal to a number, it leaves it on its side. -/
theorem compare_scaled_ofInt {n : Int} {x : Binary64} (hx : x.isNaN = false)
    (h : (Binary64.ofInt n).scaled ≠ x.scaled) :
    compare (Binary64.ofInt n).scaled x.scaled = compare (Binary64.scaleInt n) x.scaled := by
  rcases lt_trichotomy (Binary64.scaleInt n) x.scaled with hlt | heq | hgt
  · rw [compare_lt_iff_lt.mpr hlt, compare_lt_iff_lt]
    exact (Binary64.scaled_ofInt_le hx hlt.le).lt_of_ne h
  · exact absurd (le_antisymm (Binary64.scaled_ofInt_le hx heq.le)
      (Binary64.le_scaled_ofInt hx heq.ge)) h
  · rw [compare_gt_iff_gt.mpr hgt, compare_gt_iff_gt]
    exact (Binary64.le_scaled_ofInt hx hgt.le).lt_of_ne h.symm

/-- Unless both are integers, numbers are compared after rounding. -/
theorem compare?_eq_rounded {a b : Scalar} (ha : a.IsNumber) (hb : b.IsNumber)
    (h : (a.isInteger && b.isInteger) = false) :
    a.compare? b = some (compare a.rounded b.rounded) := by
  cases a with
  | integer m =>
    cases b with
    | integer n => cases h
    | real y =>
      rw [compare?, Binary64.compare?, Binary64.not_isNaN_ofInt,
        Binary64.not_isNaN_of_isFinite hb]
      rfl
    | text | bool | timestamp => exact hb.elim
  | real x =>
    have hx := Binary64.not_isNaN_of_isFinite ha
    cases b with
    | integer n =>
      rw [compare?, Binary64.compare?, hx, Binary64.not_isNaN_ofInt]
      rfl
    | real y =>
      rw [compare?, Binary64.compare?, hx, Binary64.not_isNaN_of_isFinite hb]
      rfl
    | text | bool | timestamp => exact hb.elim
  | text | bool | timestamp => exact ha.elim

/-- Two numbers are compared exactly, but for the ties that rounding makes. -/
theorem compare?_eq {a b : Scalar} (ha : a.IsNumber) (hb : b.IsNumber) :
    a.compare? b = some (if a.TiesByRounding b then .eq else compare a.value b.value) := by
  rw [compare_value]
  by_cases htie : a.TiesByRounding b
  · have hboth : (a.isInteger && b.isInteger) = false := by
      rw [Bool.eq_not.mpr htie.1, Bool.not_and_self]
    rw [compare?_eq_rounded ha hb hboth, if_pos htie, compare_eq_iff_eq.mpr htie.2]
  · rw [if_neg htie]
    cases a with
    | integer m =>
      cases b with
      | integer n => exact congrArg some (Cell.compare_scaleInt m.toInt n.toInt).symm
      | real y =>
        rw [compare?_eq_rounded ha hb rfl]
        exact congrArg some (compare_scaled_ofInt (Binary64.not_isNaN_of_isFinite hb)
          fun h => htie ⟨Bool.false_ne_true.symm, h⟩)
      | text | bool | timestamp => exact hb.elim
    | real x =>
      cases b with
      | integer n =>
        have hsame := compare_scaled_ofInt (Binary64.not_isNaN_of_isFinite ha)
          fun h => htie ⟨Bool.false_ne_true, h.symm⟩
        rw [compare?_eq_rounded ha hb rfl]
        show some (compare x.scaled (Binary64.ofInt n.toInt).scaled) =
          some (compare x.scaled (Binary64.scaleInt n.toInt))
        rw [← Int.compare_swap, hsame, Int.compare_swap]
      | real y => exact compare?_eq_rounded ha hb rfl
      | text | bool | timestamp => exact hb.elim
    | text | bool | timestamp => exact ha.elim

theorem compare?_ne_gt_iff {a b : Scalar} (ha : a.IsNumber) (hb : b.IsNumber) :
    a.compare? b ≠ some .gt ↔ a.value ≤ b.value ∨ a.TiesByRounding b := by
  rw [compare?_eq ha hb, ne_eq, Option.some_inj]
  split
  next htie => simp [htie]
  next htie => simp [htie, compare_gt_iff_gt]

theorem compare?_integers_ne_gt_iff (m n : Int64) :
    compare? (.integer m) (.integer n) ≠ some .gt ↔ m.toInt ≤ n.toInt := by
  rw [compare?, ne_eq, Option.some_inj, compare_gt_iff_gt, not_lt]

/-- What is not found above another is not rounded to a number above it. -/
theorem rounded_le {a b : Scalar} (ha : a.IsNumber) (hb : b.IsNumber)
    (h : a.compare? b ≠ some .gt) : a.rounded ≤ b.rounded := by
  cases hboth : a.isInteger && b.isInteger with
  | false =>
    rw [compare?_eq_rounded ha hb hboth, ne_eq, Option.some_inj, compare_gt_iff_gt] at h
    exact not_lt.mp h
  | true =>
    obtain ⟨m, rfl⟩ := exists_of_isInteger (Bool.and_eq_true_iff.mp hboth).1
    obtain ⟨n, rfl⟩ := exists_of_isInteger (Bool.and_eq_true_iff.mp hboth).2
    exact Binary64.scaled_ofInt_mono ((compare?_integers_ne_gt_iff m n).mp h)

/-- Of three numbers in a row the first is found above the last just where rounding makes both equal
to the one between them. -/
theorem compare?_eq_gt_iff {a b c : Scalar} (ha : a.IsNumber) (hb : b.IsNumber) (hc : c.IsNumber)
    (hab : a.compare? b ≠ some .gt) (hbc : b.compare? c ≠ some .gt) :
    a.compare? c = some .gt ↔
      c.value < a.value ∧ a.TiesByRounding b ∧ c.TiesByRounding b := by
  constructor
  · intro hac
    have hle := (rounded_le ha hb hab).trans (rounded_le hb hc hbc)
    have habove : c.value < a.value := by
      have hnot := mt (compare?_ne_gt_iff ha hc).mpr (not_not.mpr hac)
      exact not_le.mp fun h => hnot (.inl h)
    cases hboth : a.isInteger && c.isInteger with
    | false =>
      rw [compare?_eq_rounded ha hc hboth, Option.some_inj, compare_gt_iff_gt] at hac
      exact absurd hle (not_le.mpr hac)
    | true =>
      obtain ⟨m, rfl⟩ := exists_of_isInteger (Bool.and_eq_true_iff.mp hboth).1
      obtain ⟨n, rfl⟩ := exists_of_isInteger (Bool.and_eq_true_iff.mp hboth).2
      have hnm : n.toInt < m.toInt := Int.cast_lt.mp habove
      cases b with
      | integer k =>
        have hmk := (compare?_integers_ne_gt_iff m k).mp hab
        have hkn := (compare?_integers_ne_gt_iff k n).mp hbc
        omega
      | real x =>
        have hround := Binary64.scaled_ofInt_mono hnm.le
        have hmx := rounded_le ha hb hab
        have hxn := rounded_le hb hc hbc
        exact ⟨habove, ⟨Bool.false_ne_true.symm, le_antisymm hmx (hxn.trans hround)⟩,
          Bool.false_ne_true.symm, le_antisymm (hround.trans hmx) hxn⟩
      | text | bool | timestamp => exact hb.elim
  · rintro ⟨habove, hta, htc⟩
    have hsame : ¬ a.TiesByRounding c := fun hac =>
      hac.1 ((Bool.eq_not.mpr hta.1).trans (Bool.eq_not.mpr htc.1).symm)
    rw [compare?_eq ha hc, if_neg hsame, compare_gt_iff_gt.mpr habove]

end Scalar

/-- A number in a JSON text is read as a finite number. -/
theorem Scalar.exists_isNumber_of_isNumber {j : Json} (h : j.IsNumber) :
    ∃ a, ofJson? .number j = some a ∧ a.IsNumber := by
  cases j with
  | int n =>
    refine ⟨ofInt n, rfl, ?_⟩
    rw [ofInt]
    split
    next => trivial
    next =>
      refine Binary64.isFinite_ofInt ?_
      have hmin : minInt64 = -(pow2 63 : Int) := by decide
      have hlow : minInt64 ≤ n := h.1
      have hhigh : n < pow2 64 := h.2
      have hhalf : (pow2 63 : Int) ≤ pow2 64 := by decide
      omega
  | real x => exact ⟨.real x, rfl, h⟩
  | null | bool | str | arr | obj => exact h.elim

namespace Plan

/-- Two bounds that are numbers are refused just where the low one is found above the high one. -/
theorem checkFilter_between {f : Field} {low high : Json} {a b : Scalar} (name : String)
    (hallows : f.allows .between = true) (hlow : Scalar.ofJson? f.kind low = some a)
    (hhigh : Scalar.ofJson? f.kind high = some b) :
    checkFilter (⟨name, "between", .arr [low, high]⟩, f) =
      if a.compare? b = some .gt then .error (.invalidFilter f.name .boundsReversed)
      else .ok ⟨f, .between a b⟩ := by
  have hname : Operator.ofName? "between" = some .between := by decide
  rw [checkFilter, hname]
  simp only [hallows, if_true, checkOperand, checkBounds, checkScalar, hlow, hhigh]
  show Except.map _ (if _ then _ else _) = _
  split <;> rfl

/-- Two numbers are accepted as bounds just where the low one is at most the high one, or where one
of them is an integer that is rounded to the other; so the bounds are judged by their values just
where they are no reversed ones with such a tie. The store orders what is bound by its exact value,
and so does the comparison but for ties; integers up to two to the power of 53 are rounded to no
other value. A third number that the comparison puts above the second is found below the first just
where rounding makes both equal to the second. -/
theorem between_numbers_accepted_iff (f : Field) (name : String) (low high : Json)
    (hkind : f.kind = .number) (hallows : f.allows .between = true) (hlow : low.IsNumber)
    (hhigh : high.IsNumber) :
    ∃ a b : Scalar, Scalar.ofJson? .number low = some a ∧ Scalar.ofJson? .number high = some b ∧
      a.IsNumber ∧ b.IsNumber ∧
      checkFilter (⟨name, "between", .arr [low, high]⟩, f) =
        (if a.value ≤ b.value ∨ a.TiesByRounding b then .ok ⟨f, .between a b⟩
        else .error (.invalidFilter f.name .boundsReversed)) ∧
      ((checkFilter (⟨name, "between", .arr [low, high]⟩, f) = .ok ⟨f, .between a b⟩ ↔
          a.value ≤ b.value) ↔ ¬ (b.value < a.value ∧ a.TiesByRounding b)) ∧
      (Cell.ofParam (.ofScalar a)).order (Cell.ofParam (.ofScalar b)) = compare a.value b.value ∧
      a.compare? b = some (if a.TiesByRounding b then .eq else compare a.value b.value) ∧
      (a.FitsSignificand → b.FitsSignificand → a.TiesByRounding b → a.value = b.value) ∧
      ∀ c : Scalar, c.IsNumber → a.compare? b ≠ some .gt → b.compare? c ≠ some .gt →
        (a.compare? c = some .gt ↔
          c.value < a.value ∧ a.TiesByRounding b ∧ c.TiesByRounding b) := by
  obtain ⟨a, ha, hanumber⟩ := Scalar.exists_isNumber_of_isNumber hlow
  obtain ⟨b, hb, hbnumber⟩ := Scalar.exists_isNumber_of_isNumber hhigh
  have hchecked : checkFilter (⟨name, "between", .arr [low, high]⟩, f) =
      (if a.value ≤ b.value ∨ a.TiesByRounding b then .ok ⟨f, .between a b⟩
      else .error (.invalidFilter f.name .boundsReversed)) := by
    rw [checkFilter_between name hallows (hkind ▸ ha) (hkind ▸ hb)]
    have haccepted := Scalar.compare?_ne_gt_iff hanumber hbnumber
    by_cases h : a.compare? b = some .gt
    · rw [if_pos h, if_neg fun hor => haccepted.mpr hor h]
    · rw [if_neg h, if_pos (haccepted.mp h)]
  have hexact : ((checkFilter (⟨name, "between", .arr [low, high]⟩, f) = .ok ⟨f, .between a b⟩ ↔
      a.value ≤ b.value) ↔ ¬ (b.value < a.value ∧ a.TiesByRounding b)) := by
    rw [hchecked, ← not_le]
    by_cases hle : a.value ≤ b.value <;> by_cases htie : a.TiesByRounding b <;> simp [hle, htie]
  exact ⟨a, b, ha, hb, hanumber, hbnumber, hchecked, hexact,
    Scalar.order_ofScalar hanumber hbnumber, Scalar.compare?_eq hanumber hbnumber,
    Scalar.value_eq_of_tiesByRounding,
    fun _ hc => Scalar.compare?_eq_gt_iff hanumber hbnumber hc⟩

end Plan

namespace Prices

def price : Field where
  id := 0
  name := "price"
  column := "price"
  kind := .number
  operators := ValueKind.number.defaultOperators
  unique := false
  nullable := true

/-- Two to the power of 53, as a floating-point number. -/
def limit : Binary64 := ⟨0x4340000000000000⟩

/-- The bounds are a price and one unit less, and are accepted. The store finds them reversed, and
the comparison goes from the price to the integer below it by way of the number between. -/
theorem reversed_bounds_accepted :
    Plan.checkFilter (⟨"price", "between", .arr [.int 9007199254740993, .real limit]⟩, price) =
        .ok ⟨price, .between (.integer 9007199254740993) (.real limit)⟩ ∧
      (Scalar.real limit).value < (Scalar.integer 9007199254740993).value ∧
      Cell.order (.integer 9007199254740993) (.real limit) = .gt ∧
      Scalar.compare? (.integer 9007199254740993) (.real limit) = some .eq ∧
      Scalar.compare? (.real limit) (.integer 9007199254740992) = some .eq ∧
      Scalar.compare? (.integer 9007199254740993) (.integer 9007199254740992) = some .gt := by
  obtain ⟨a, b, ha, hb, -, -, haccepted, -, horder, hcompare, -, hthird⟩ :=
    Plan.between_numbers_accepted_iff price "price" (.int 9007199254740993) (.real limit) rfl
      (by decide) ⟨by decide, by decide⟩ rfl
  cases ha
  cases hb
  have htie : (Scalar.integer 9007199254740993).TiesByRounding (.real limit) := by decide +kernel
  have habove : (Scalar.real limit).value < (Scalar.integer 9007199254740993).value := by
    rw [Scalar.value_lt_iff]
    decide +kernel
  have hdown : Scalar.compare? (.real limit) (.integer 9007199254740992) = some .eq := by
    decide +kernel
  refine ⟨?_, habove, ?_, ?_, hdown, ?_⟩
  · rw [haccepted, if_pos (.inr htie)]
    rfl
  · exact horder.trans (compare_gt_iff_gt.mpr habove)
  · exact hcompare.trans (congrArg some (if_pos htie))
  · refine (hthird (.integer 9007199254740992) trivial ?_ ?_).mpr ⟨?_, htie, by decide +kernel⟩
    · rw [hcompare, ne_eq, Option.some_inj]
      exact fun h => absurd ((if_pos htie).symm.trans h) (by decide)
    · rw [hdown]
      decide
    · rw [Scalar.value_lt_iff]
      decide +kernel

end Prices

end CatalogQuery
