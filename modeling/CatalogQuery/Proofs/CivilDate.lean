import CatalogQuery.Time.Civil
import Mathlib
/-!
# The order of dates

Dates are ordered by year, month and day, as the days they stand for are. A day is placed in a year
that begins with March, where every month begins a fixed number of days after the year does.
-/
namespace CatalogQuery

theorem compare_eq_compare {α β : Type} [LinearOrder α] [LinearOrder β] {x y : β} {a b : α}
    (hlt : x < y → a < b) (hgt : y < x → b < a) (heq : x = y → a = b) :
    compare x y = compare a b := by
  rcases lt_trichotomy x y with h | h | h
  · rw [compare_lt_iff_lt.mpr h, compare_lt_iff_lt.mpr (hlt h)]
  · rw [compare_eq_iff_eq.mpr h, compare_eq_iff_eq.mpr (heq h)]
  · rw [compare_gt_iff_gt.mpr h, compare_gt_iff_gt.mpr (hgt h)]

/-- A comparison by a first key and then by more is the comparison of two values, if the first key
decides it unless it is the same on both sides. -/
theorem then_eq_compare {α β : Type} [LinearOrder α] [LinearOrder β] {x y : β} {a b : α}
    {rest : Ordering} (hlt : x < y → a < b) (hgt : y < x → b < a)
    (heq : x = y → rest = compare a b) : (compare x y).then rest = compare a b := by
  rcases lt_trichotomy x y with h | h | h
  · rw [compare_lt_iff_lt.mpr h, compare_lt_iff_lt.mpr (hlt h)]
    rfl
  · rw [compare_eq_iff_eq.mpr h, heq h]
    rfl
  · rw [compare_gt_iff_gt.mpr h, compare_gt_iff_gt.mpr (hgt h)]
    rfl

namespace Time

/-- The days before a year that begins with March, counted from year 0. -/
def daysBeforeYear (year : Int) : Int := 365 * year + year / 4 - year / 100 + year / 400

/-- The days before a month in a year that begins with March, which is month 0. -/
def daysBeforeMonth (month : Int) : Int := (153 * month + 2) / 5

theorem daysBeforeYear_mono : Monotone daysBeforeYear :=
  monotone_int_of_le_succ fun year => by
    rw [daysBeforeYear, daysBeforeYear]
    omega

theorem daysBeforeMonth_mono : Monotone daysBeforeMonth := fun a b h => by
  rw [daysBeforeMonth, daysBeforeMonth]
  omega

theorem daysBeforeYear_add_era (year era : Int) :
    daysBeforeYear (year + era * 400) = daysBeforeYear year + era * 146097 := by
  rw [daysBeforeYear, daysBeforeYear]
  omega

/-- The year of a day among the four hundred years of an era. -/
def yearOfEra (day : Int) : Int := (day - day / 1460 + day / 36524 - day / 146096) / 365

/-- The centuries of an era have 36524 days, but for a last day of the era; a hundred divides their
last years, so that the four-year cycles of 1461 days fall short by a day for each century. -/
theorem yearOfEra_div {day : Int} (hnonneg : 0 ≤ day) (hlt : day < 146096) :
    yearOfEra day / 100 = day / 36524 ∧ yearOfEra day / 4 = (day + day / 36524) / 1461 := by
  have hera : day / 146096 = 0 := by omega
  have hcentury : day / 36524 = 0 ∨ day / 36524 = 1 ∨ day / 36524 = 2 ∨ day / 36524 = 3 := by omega
  rw [yearOfEra, hera]
  rcases hcentury with h | h | h | h <;> rw [h] <;> constructor <;> omega

/-- A day of an era lies in its year. The last year of a cycle has a leap day, but for the last year
of a century. -/
theorem day_mem_yearOfEra {day : Int} (hnonneg : 0 ≤ day) (hlt : day < 146097) :
    daysBeforeYear (yearOfEra day) ≤ day ∧ day < daysBeforeYear (yearOfEra day + 1) := by
  have hlast : day < 146096 ∨ day = 146096 := by omega
  rcases hlast with hlast | rfl
  case inr => decide
  obtain ⟨hhundredth, hquarter⟩ := yearOfEra_div hnonneg hlast
  obtain ⟨century, hcentury⟩ : ∃ k, day / 36524 = k := ⟨_, rfl⟩
  obtain ⟨cycle, hcycle⟩ : ∃ q, (day + century) / 1461 = q := ⟨_, rfl⟩
  have hyear : yearOfEra day = (day - day / 1460 + century) / 365 := by
    rw [yearOfEra]
    omega
  rw [hcentury] at hhundredth hquarter
  rw [hcycle] at hquarter
  have hcycle_le : cycle ≤ day / 1460 := by omega
  generalize yearOfEra day = year at *
  rw [daysBeforeYear, daysBeforeYear]
  refine ⟨by omega, ?_⟩
  by_cases hleap : year = 4 * cycle + 3
  · have hnext : (year + 1) / 4 = cycle + 1 := by omega
    by_cases hend : year = 100 * century + 99
    · have hcenturies : (year + 1) / 100 = century + 1 := by omega
      omega
    · have hcenturies : (year + 1) / 100 = century := by omega
      omega
  · have hnext : (year + 1) / 4 = cycle := by omega
    have hcenturies : (year + 1) / 100 = century := by omega
    have hdays : day / 1460 = cycle := by omega
    omega

/-- A day, counted from the first of March of year 0, is this day of this month of this year; month
and day are counted from zero. -/
structure FallsOn (n year month day : Int) : Prop where
  month_nonneg : 0 ≤ month
  month_le : month ≤ 11
  day_nonneg : 0 ≤ day
  day_lt : daysBeforeMonth month + day < daysBeforeMonth (month + 1)
  eq_add : n = daysBeforeYear year + daysBeforeMonth month + day
  lt_next : n < daysBeforeYear (year + 1)

namespace FallsOn

variable {a b year month day year' month' day' : Int} (ha : FallsOn a year month day)
  (hb : FallsOn b year' month' day')

include ha hb

theorem lt_of_year_lt (h : year < year') : a < b := by
  have hyears := daysBeforeYear_mono (Int.add_one_le_of_lt h)
  have hmonth := daysBeforeMonth_mono hb.month_nonneg
  have hzero : daysBeforeMonth 0 = 0 := rfl
  have hlast := ha.lt_next
  have hsum := hb.eq_add
  have hday := hb.day_nonneg
  omega

theorem lt_of_month_lt (hyear : year = year') (h : month < month') : a < b := by
  have hmonths := daysBeforeMonth_mono (Int.add_one_le_of_lt h)
  have hlast := ha.day_lt
  have hsum := ha.eq_add
  have hsum' := hb.eq_add
  have hday := hb.day_nonneg
  subst hyear
  omega

theorem lt_of_months_lt (h : 12 * year + month < 12 * year' + month') : a < b := by
  rcases Int.lt_trichotomy year year' with hyear | hyear | hyear
  · exact ha.lt_of_year_lt hb hyear
  · exact ha.lt_of_month_lt hb hyear (by omega)
  · have hlow := hb.month_nonneg
    have hhigh := ha.month_le
    have := hb.month_le
    have := ha.month_nonneg
    omega

/-- Within a month, days are as far apart as their numbers. -/
theorem sub_eq_of_months_eq (h : 12 * year + month = 12 * year' + month') : a - b = day - day' := by
  have hlow := ha.month_nonneg
  have hhigh := ha.month_le
  have hlow' := hb.month_nonneg
  have hhigh' := hb.month_le
  obtain rfl : year = year' := by omega
  obtain rfl : month = month' := by omega
  rw [ha.eq_add, hb.eq_add]
  omega

end FallsOn

/-- Every era has the years and days of the first. -/
theorem FallsOn.add_era {n year month day : Int} (h : FallsOn n year month day) (era : Int) :
    FallsOn (n + era * 146097) (year + era * 400) month day where
  month_nonneg := h.month_nonneg
  month_le := h.month_le
  day_nonneg := h.day_nonneg
  day_lt := h.day_lt
  eq_add := by
    rw [daysBeforeYear_add_era, h.eq_add]
    omega
  lt_next := by
    rw [show year + era * 400 + 1 = year + 1 + era * 400 by omega, daysBeforeYear_add_era]
    exact Int.add_lt_add_right h.lt_next _

theorem yearOfEra_bounds {day : Int} (hnonneg : 0 ≤ day) (hlt : day < 146097) :
    0 ≤ yearOfEra day ∧ yearOfEra day ≤ 399 := by
  rw [yearOfEra]
  omega

theorem fallsOn_yearOfEra {day : Int} (hnonneg : 0 ≤ day) (hlt : day < 146097) :
    FallsOn day (yearOfEra day) ((5 * (day - daysBeforeYear (yearOfEra day)) + 2) / 153)
      (day - daysBeforeYear (yearOfEra day) -
        daysBeforeMonth ((5 * (day - daysBeforeYear (yearOfEra day)) + 2) / 153)) := by
  obtain ⟨hlow, hhigh⟩ := day_mem_yearOfEra hnonneg hlt
  have hdays : daysBeforeYear (yearOfEra day + 1) ≤ daysBeforeYear (yearOfEra day) + 366 := by
    rw [daysBeforeYear, daysBeforeYear]
    omega
  refine ⟨by omega, by omega, ?_, ?_, by omega, hhigh⟩
  · rw [daysBeforeMonth]
    omega
  · rw [daysBeforeMonth, daysBeforeMonth]
    omega

namespace Date

def order (a b : Date) : Ordering :=
  (compare a.year b.year).then ((compare a.month b.month).then (compare a.day b.day))

/-- Where the date of a day falls in the years from March; its month is counted from January. -/
theorem exists_fallsOn (n : Int) :
    ∃ year month day, FallsOn (n + 719468) year month day ∧
      12 * (ofDays n).year + (ofDays n).month = 12 * year + month + 3 ∧
      1 ≤ (ofDays n).month ∧ (ofDays n).month ≤ 12 ∧ (ofDays n).day = day + 1 := by
  obtain ⟨era, hera⟩ : ∃ era, (n + 719468) / 146097 = era := ⟨_, rfl⟩
  obtain ⟨inEra, hinEra⟩ : ∃ day, n + 719468 - era * 146097 = day := ⟨_, rfl⟩
  obtain ⟨year, hyear⟩ : ∃ year, yearOfEra inEra = year := ⟨_, rfl⟩
  obtain ⟨inYear, hinYear⟩ : ∃ day, inEra - (365 * year + year / 4 - year / 100) = day := ⟨_, rfl⟩
  obtain ⟨month, hmonth⟩ : ∃ month, (5 * inYear + 2) / 153 = month := ⟨_, rfl⟩
  have hdate : ofDays n =
      { year := if (if month < 10 then month + 3 else month - 9) ≤ 2 then year + era * 400 + 1
          else year + era * 400
        month := (if month < 10 then month + 3 else month - 9).toNat
        day := (inYear - (153 * month + 2) / 5 + 1).toNat } := by
    subst hmonth hinYear hyear hinEra hera
    rfl
  have hnonneg : 0 ≤ inEra := by omega
  have hlt : inEra < 146097 := by omega
  have hbounds := yearOfEra_bounds hnonneg hlt
  have hyears : daysBeforeYear year = 365 * year + year / 4 - year / 100 := by
    rw [daysBeforeYear]
    omega
  have hfalls := fallsOn_yearOfEra hnonneg hlt
  rw [hyear, hyears, hinYear, hmonth] at hfalls
  have hmonths := hfalls.month_nonneg
  have hmonths_le := hfalls.month_le
  have hdays := hfalls.day_nonneg
  refine ⟨year + era * 400, month, inYear - daysBeforeMonth month, ?_, ?_⟩
  · rw [show n + 719468 = inEra + era * 146097 by omega]
    exact hfalls.add_era era
  · rw [daysBeforeMonth] at hdays ⊢
    rw [hdate]
    by_cases hnewYear : month < 10
    · rw [if_pos hnewYear, if_neg (by omega)]
      dsimp only
      omega
    · rw [if_neg hnewYear, if_pos (by omega)]
      dsimp only
      omega

theorem month_ofDays_lt (n : Int) : (ofDays n).month < 100 := by
  obtain ⟨-, -, -, -, -, -, hmonth, -⟩ := exists_fallsOn n
  omega

theorem day_ofDays_lt (n : Int) : (ofDays n).day < 100 := by
  obtain ⟨year, month, day, hfalls, -, -, -, hday⟩ := exists_fallsOn n
  have hlast := hfalls.day_lt
  rw [daysBeforeMonth, daysBeforeMonth] at hlast
  omega

/-- Dates are ordered as their days are. -/
theorem order_ofDays (a b : Int) : (ofDays a).order (ofDays b) = compare a b := by
  obtain ⟨year, month, day, ha, hmonths, hlow, hhigh, hday⟩ := exists_fallsOn a
  obtain ⟨year', month', day', hb, hmonths', hlow', hhigh', hday'⟩ := exists_fallsOn b
  have hbefore (h : 12 * year + month < 12 * year' + month') : a < b := by
    have := ha.lt_of_months_lt hb h
    omega
  have hafter (h : 12 * year' + month' < 12 * year + month) : b < a := by
    have := hb.lt_of_months_lt ha h
    omega
  apply then_eq_compare
  · intro hyears
    exact hbefore (by omega)
  · intro hyears
    exact hafter (by omega)
  · intro hyears
    apply then_eq_compare
    · intro hmonth
      exact hbefore (by omega)
    · intro hmonth
      exact hafter (by omega)
    · intro hmonth
      have hdays := ha.sub_eq_of_months_eq hb (by omega)
      apply compare_eq_compare <;> omega

theorem lt_of_year_ofDays_lt {a b : Int} (h : (ofDays a).year < (ofDays b).year) : a < b := by
  rw [← compare_lt_iff_lt, ← order_ofDays, order, compare_lt_iff_lt.mpr h]
  rfl

theorem year_ofDays_mono {a b : Int} (h : a ≤ b) : (ofDays a).year ≤ (ofDays b).year :=
  not_lt.mp fun hlt => absurd (lt_of_year_ofDays_lt hlt) (not_lt.mpr h)

end Date

end Time

end CatalogQuery
