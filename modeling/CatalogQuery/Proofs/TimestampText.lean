import CatalogQuery.Proofs.CivilDate
import CatalogQuery.Proofs.NumberText
import CatalogQuery.Time.Timestamp
/-!
# The order of timestamp texts

Texts of timestamps are compared character by character. Between the years 0 and 9999 every field of
a text has its full width, so texts are ordered as the instants are, whose fractions of a second are
not written. The texts of all other years come before these.
-/
namespace CatalogQuery

theorem compare_ofList (a b : List Char) :
    compare (String.ofList a) (String.ofList b) = compare a b := by
  show compareOfLessAndEq (String.ofList a) (String.ofList b) = List.compareLex compare a b
  simp only [compareOfLessAndEq, String.lt_iff, String.toList_ofList, String.ofList_inj]
  induction a generalizing b with
  | nil => cases b <;> rfl
  | cons c a ih =>
    cases b with
    | nil => rfl
    | cons d b =>
      rw [List.compareLex_cons_cons, ← ih]
      simp only [List.cons_lt_cons_iff, List.cons.injEq]
      rcases lt_trichotomy c d with h | h | h
      · rw [compare_lt_iff_lt.mpr h]
        simp [h]
      · rw [compare_eq_iff_eq.mpr h]
        simp [h]
      · rw [compare_gt_iff_gt.mpr h]
        simp [h.not_gt, h.ne']

theorem compare_cons (c d : Char) (x y : List Char) :
    compare (c :: x) (d :: y) = (compare c d).then (compare x y) := List.compareLex_cons_cons

theorem compare_singleton (c d : Char) : compare [c] [d] = compare c d := by
  rw [compare_cons]
  exact Ordering.then_eq

theorem compare_append {a b : List Char} (h : a.length = b.length) (x y : List Char) :
    compare (a ++ x) (b ++ y) = (compare a b).then (compare x y) := by
  induction a generalizing b with
  | nil =>
    obtain rfl := List.length_eq_zero_iff.mp h.symm
    rfl
  | cons c a ih =>
    cases b with
    | nil => cases h
    | cons d b =>
      rw [List.cons_append, List.cons_append, compare_cons, compare_cons, Ordering.then_assoc,
        ih (Nat.succ.inj h)]

namespace Number

theorem compare_digitChar : ∀ m < 10, ∀ n < 10, compare m.digitChar n.digitChar = compare m n := by
  decide

theorem paddedDigits_of_lt_ten {n : Nat} (h : n < 10) (width : Nat) :
    paddedDigits (width + 1) n = List.replicate width '0' ++ [n.digitChar] := by
  rw [paddedDigits, digitCount, digits, Nat.toDigits_of_lt_base h, List.length_singleton,
    Nat.add_sub_cancel]

theorem paddedDigits_succ (width n : Nat) :
    paddedDigits (width + 2) n = paddedDigits (width + 1) (n / 10) ++ [(n % 10).digitChar] := by
  rcases Nat.lt_or_ge n 10 with hn | hn
  · rw [Nat.div_eq_of_lt hn, Nat.mod_eq_of_lt hn, paddedDigits_of_lt_ten hn,
      paddedDigits_of_lt_ten (by decide), List.replicate_succ']
    rfl
  · rw [paddedDigits, paddedDigits, digitCount, digitCount, digits, digits,
      Nat.toDigits_of_base_le (by decide) hn, List.length_append, List.length_singleton,
      Nat.succ_sub_succ, List.append_assoc]

theorem length_paddedDigits {width n : Nat} (h : n < 10 ^ (width + 1)) :
    (paddedDigits (width + 1) n).length = width + 1 := by
  have hcount : digitCount n ≤ width + 1 := Nat.toDigits_length 10 n (width + 1) width.succ_pos h
  rw [paddedDigits, List.length_append, List.length_replicate, ← digitCount]
  omega

/-- Digits of one width are ordered as the numbers that they spell. -/
theorem compare_paddedDigits {width m n : Nat} (hm : m < 10 ^ (width + 1))
    (hn : n < 10 ^ (width + 1)) :
    compare (paddedDigits (width + 1) m) (paddedDigits (width + 1) n) = compare m n := by
  induction width generalizing m n with
  | zero =>
    rw [paddedDigits_of_lt_ten hm, paddedDigits_of_lt_ten hn]
    exact (compare_singleton _ _).trans (compare_digitChar m hm n hn)
  | succ width ih =>
    have hm' : m / 10 < 10 ^ (width + 1) := Nat.div_lt_of_lt_mul (by rwa [← Nat.pow_succ'])
    have hn' : n / 10 < 10 ^ (width + 1) := Nat.div_lt_of_lt_mul (by rwa [← Nat.pow_succ'])
    rw [paddedDigits_succ, paddedDigits_succ,
      compare_append (by rw [length_paddedDigits hm', length_paddedDigits hn']), ih hm' hn',
      compare_singleton,
      compare_digitChar _ (Nat.mod_lt _ (by decide)) _ (Nat.mod_lt _ (by decide))]
    apply then_eq_compare
    · omega
    · omega
    · intro htens
      apply compare_eq_compare <;> omega

theorem compare_paddedDigits_append {width m n : Nat} (hm : m < 10 ^ (width + 1))
    (hn : n < 10 ^ (width + 1)) (c : Char) (x y : List Char) :
    compare (paddedDigits (width + 1) m ++ c :: x) (paddedDigits (width + 1) n ++ c :: y) =
      (compare m n).then (compare x y) := by
  rw [compare_append (by rw [length_paddedDigits hm, length_paddedDigits hn]),
    compare_paddedDigits hm hn, compare_cons, compare_eq_iff_eq.mpr rfl]
  rfl

theorem isDigit_of_mem_paddedDigits {width n : Nat} {c : Char} (h : c ∈ paddedDigits width n) :
    isDigit c = true := by
  rcases List.mem_append.mp h with h | h
  · rw [List.eq_of_mem_replicate h]
    rfl
  · exact isDigit_of_mem_digits h

theorem exists_paddedDigits_eq_cons (width n : Nat) :
    ∃ c cs, paddedDigits width n = c :: cs ∧ isDigit c = true := by
  obtain ⟨c, cs, h⟩ := List.exists_cons_of_ne_nil (List.append_ne_nil_of_right_ne_nil
    (List.replicate (width - digitCount n) '0') (digits_ne_nil n))
  exact ⟨c, cs, h, isDigit_of_mem_paddedDigits (by rw [paddedDigits, h]; exact List.mem_cons_self)⟩

end Number

namespace Time.Timestamp

/-- Only the last second of a minute is a leap second. -/
def IsCivil (t : Timestamp) : Prop := nanosPerSecond ≤ t.nanos → t.seconds % 60 = 59

/-- The year is one that is written with four digits and no sign. -/
def HasPlainYear (t : Timestamp) : Prop := 0 ≤ t.date.year ∧ t.date.year ≤ 9999

/-- The instant without its fraction of a second; a leap second remains one. -/
def wholeSecond (t : Timestamp) : Timestamp :=
  { t with nanos := if nanosPerSecond ≤ t.nanos then nanosPerSecond else 0 }

/-- The seconds of the clock up to an instant, of which every minute has room for sixty-one. -/
def position (t : Timestamp) : Int := t.seconds / 60 * 61 + t.second

theorem HasPlainYear.yearText_eq {t : Timestamp} (h : t.HasPlainYear) :
    yearText t.date.year = Number.paddedDigits 4 t.date.year.natAbs := if_pos h

theorem exists_yearText_eq_cons {year : Int} (h : ¬ (0 ≤ year ∧ year ≤ 9999)) :
    ∃ sign ∈ ['-', '+'], yearText year = sign :: Number.paddedDigits 4 year.natAbs := by
  rw [yearText, if_neg h]
  refine ⟨_, ?_, rfl⟩
  split
  · exact List.mem_cons_self
  · exact List.mem_cons_of_mem _ List.mem_cons_self

theorem second_eq (t : Timestamp) :
    (t.second : Int) = t.seconds % 60 + if nanosPerSecond ≤ t.nanos then 1 else 0 := by
  rw [second, secondOfDay, secondsPerDay]
  split <;> omega

theorem second_le (t : Timestamp) : t.second ≤ 60 := by
  rw [second]
  split <;> omega

theorem secondOfDay_lt (t : Timestamp) : t.secondOfDay < 86400 := by
  rw [secondOfDay, secondsPerDay]
  omega

variable {a b : Timestamp}

/-- The clock on one day tells seconds apart as their positions do. -/
theorem compare_clock (hday : a.seconds / secondsPerDay = b.seconds / secondsPerDay) :
    (compare (a.secondOfDay / 3600) (b.secondOfDay / 3600)).then
      ((compare (a.secondOfDay / 60 % 60) (b.secondOfDay / 60 % 60)).then
        (compare a.second b.second)) = compare a.position b.position := by
  have hsecond := a.second_le
  have hsecond' := b.second_le
  rw [secondsPerDay] at hday
  rw [secondOfDay, secondOfDay, secondsPerDay, position, position]
  apply then_eq_compare
  · omega
  · omega
  · intro hhours
    apply then_eq_compare
    · omega
    · omega
    · intro hminutes
      apply compare_eq_compare <;> omega

theorem compare_date (a b : Timestamp) :
    a.date.order b.date = compare (a.seconds / secondsPerDay) (b.seconds / secondsPerDay) :=
  Date.order_ofDays _ _

theorem compare_chars (ha : a.HasPlainYear) (hb : b.HasPlainYear) :
    compare a.chars b.chars = compare a.position b.position := by
  have hyears :
      compare a.date.year.natAbs b.date.year.natAbs = compare a.date.year b.date.year := by
    obtain ⟨ha0, -⟩ := ha
    obtain ⟨hb0, -⟩ := hb
    apply compare_eq_compare <;> omega
  have hclock := a.secondOfDay_lt
  have hclock' := b.secondOfDay_lt
  have hsecond := a.second_le
  have hsecond' := b.second_le
  rw [chars, chars, ha.yearText_eq, hb.yearText_eq]
  simp only [List.append_assoc, List.cons_append]
  obtain ⟨ha0, ha1⟩ := ha
  obtain ⟨hb0, hb1⟩ := hb
  rw [Number.compare_paddedDigits_append (by omega) (by omega),
    Number.compare_paddedDigits_append (Date.month_ofDays_lt _) (Date.month_ofDays_lt _),
    Number.compare_paddedDigits_append (Date.day_ofDays_lt _) (Date.day_ofDays_lt _), hyears,
    Number.compare_paddedDigits_append (by omega) (by omega),
    Number.compare_paddedDigits_append (by omega) (by omega),
    Number.compare_paddedDigits (by omega) (by omega), ← Ordering.then_assoc,
    ← Ordering.then_assoc, Ordering.then_assoc (compare a.date.year b.date.year), ← Date.order,
    compare_date]
  apply then_eq_compare
  · rw [secondsPerDay, position, position]
    omega
  · rw [secondsPerDay, position, position]
    omega
  · exact compare_clock

/-- Whole seconds are ordered by their positions. -/
theorem order_wholeSecond (ha : a.IsCivil) (hb : b.IsCivil) :
    a.wholeSecond.order b.wholeSecond = compare a.position b.position := by
  have hsecond := a.second_eq
  have hsecond' := b.second_eq
  rw [IsCivil] at ha hb
  rw [order, wholeSecond, wholeSecond, position, position]
  apply then_eq_compare
  · intro (hseconds : a.seconds < b.seconds)
    split at hsecond <;> omega
  · intro (hseconds : b.seconds < a.seconds)
    split at hsecond' <;> omega
  · intro (hseconds : a.seconds = b.seconds)
    dsimp only
    apply compare_eq_compare <;> split <;> split <;> omega

/-- Texts with plain years are ordered as the instants without their fractions. -/
theorem compare_text (ha : a.HasPlainYear) (hb : b.HasPlainYear) (ha' : a.IsCivil)
    (hb' : b.IsCivil) : compare a.text b.text = a.wholeSecond.order b.wholeSecond := by
  rw [text, text, compare_ofList, compare_chars ha hb, order_wholeSecond ha' hb']

/-- A sign comes before every digit. -/
theorem compare_text_of_not_hasPlainYear (ha : a.HasPlainYear) (hb : ¬ b.HasPlainYear) :
    compare a.text b.text = .gt := by
  obtain ⟨c, cs, hyear, hdigit⟩ := Number.exists_paddedDigits_eq_cons 4 a.date.year.natAbs
  obtain ⟨sign, hsign, hyear'⟩ := exists_yearText_eq_cons hb
  have hc : sign < c := by
    have hlow : '0' ≤ c := of_decide_eq_true (Bool.and_eq_true_iff.mp hdigit).1
    refine lt_of_lt_of_le ?_ hlow
    rcases List.mem_cons.mp hsign with rfl | hsign
    · decide
    · rw [List.mem_singleton.mp hsign]
      decide
  rw [text, text, compare_ofList, chars, chars, ha.yearText_eq, hyear, hyear']
  simp only [List.append_assoc, List.cons_append]
  rw [compare_cons, compare_gt_iff_gt.mpr hc]
  rfl

theorem zero_notMem_chars (t : Timestamp) : '\x00' ∉ t.chars := by
  have hdigits (width n : Nat) : '\x00' ∉ Number.paddedDigits width n := fun h =>
    absurd (Number.isDigit_of_mem_paddedDigits h) (by decide)
  rw [chars, yearText]
  split
  · simp [hdigits]
  · split <;> simp [hdigits]

theorem order_eq_eq {a b : Timestamp} : a.order b = .eq ↔ a = b := by
  cases a
  cases b
  rw [order, Ordering.then_eq_eq, compare_eq_iff_eq, compare_eq_iff_eq, mk.injEq]

theorem order_of_year_lt {a b : Timestamp} (h : a.date.year < b.date.year) : a.order b = .lt := by
  have hdays := Date.lt_of_year_ofDays_lt h
  have hseconds : a.seconds < b.seconds := by
    rw [secondsPerDay] at hdays
    omega
  rw [order, compare_lt_iff_lt.mpr hseconds]
  rfl

theorem order_of_year_gt {a b : Timestamp} (h : b.date.year < a.date.year) : a.order b = .gt := by
  have hdays := Date.lt_of_year_ofDays_lt h
  have hseconds : b.seconds < a.seconds := by
    rw [secondsPerDay] at hdays
    omega
  rw [order, compare_gt_iff_gt.mpr hseconds]
  rfl

theorem order_of_seconds_eq {a b : Timestamp} (h : a.seconds = b.seconds) :
    a.order b = compare a.nanos b.nanos := by
  rw [order, compare_eq_iff_eq.mpr h]
  rfl

theorem order_of_seconds_ne {a b : Timestamp} (h : a.seconds ≠ b.seconds) :
    a.order b = compare a.seconds b.seconds := by
  rw [order]
  exact then_eq_compare id id fun heq => absurd heq h

/-- A whole second comes before the instants of its second, and stands to all others as to their
whole seconds. -/
theorem order_of_wholeSecond_eq {r : Timestamp} (hr : r.wholeSecond = r) (t : Timestamp) :
    r.order t = if t.wholeSecond = r then (if t = r then .eq else .lt) else
      r.order t.wholeSecond := by
  obtain ⟨rs, rn⟩ := r
  obtain ⟨ts, tn⟩ := t
  have hrn : nanosPerSecond ≤ rn ∧ rn = nanosPerSecond ∨ rn < nanosPerSecond ∧ rn = 0 := by
    have hnanos : (if nanosPerSecond ≤ rn then nanosPerSecond else 0) = rn := congrArg nanos hr
    split at hnanos <;> omega
  by_cases hseconds : rs = ts
  · rw [order_of_seconds_eq hseconds, order_of_seconds_eq (b := wholeSecond ⟨ts, tn⟩) hseconds]
    simp only [wholeSecond, mk.injEq, hseconds, true_and]
    obtain ⟨w, hw⟩ : ∃ w, (if nanosPerSecond ≤ tn then nanosPerSecond else 0) = w := ⟨_, rfl⟩
    have htn : nanosPerSecond ≤ tn ∧ w = nanosPerSecond ∨ tn < nanosPerSecond ∧ w = 0 := by
      split at hw <;> omega
    rw [hw]
    by_cases hwhole : w = rn
    · rw [if_pos hwhole]
      split
      next heq => exact compare_eq_iff_eq.mpr heq.symm
      next hne => exact compare_lt_iff_lt.mpr (by omega)
    · rw [if_neg hwhole]
      apply compare_eq_compare <;> omega
  · rw [if_neg, order_of_seconds_ne hseconds,
      order_of_seconds_ne (b := wholeSecond ⟨ts, tn⟩) hseconds]
    · rfl
    · intro h
      exact hseconds (congrArg seconds h).symm

end Time.Timestamp

end CatalogQuery
