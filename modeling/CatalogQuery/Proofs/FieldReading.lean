import CatalogQuery.Proofs.CivilRoundTrip
import CatalogQuery.Proofs.TimestampReading
/-!
# Reading the fields of an instant

Each reader of a number, a year, a fraction or an offset finds what was written and leaves what
follows. A number of fixed width may be followed by anything, a year or a fraction by no digit. Of a
text that neither begins nor ends with a blank, trimming takes the blanks around it and nothing else.
-/
namespace CatalogQuery

namespace Text

theorem isBlank_of_isDigit {c : Char} (h : Number.isDigit c = true) : isBlank c = false := by
  rw [Number.isDigit, Char.isDigit, Bool.and_eq_true, decide_eq_true_eq, decide_eq_true_eq] at h
  have hlow : 48 ≤ c.toNat := h.1
  have hhigh : c.toNat ≤ 57 := h.2
  simp only [isBlank, Bool.or_eq_false_iff, Bool.and_eq_false_iff, decide_eq_false_iff_not,
    beq_eq_false_iff_ne]
  omega

/-- Blanks around a text that neither begins nor ends with one are all that trimming takes. -/
theorem trimList_around {before after rest front : List Char} {first last : Char}
    (hbefore : ∀ c ∈ before, isBlank c = true) (hafter : ∀ c ∈ after, isBlank c = true)
    (hfirst : isBlank first = false) (hlast : isBlank last = false)
    (hsame : first :: rest = front ++ [last]) :
    trimList (before ++ first :: rest ++ after) = first :: rest := by
  have hleft : (before ++ first :: rest ++ after).dropWhile isBlank = first :: rest ++ after := by
    rw [List.append_assoc, List.dropWhile_append_of_pos hbefore]
    exact List.dropWhile_cons_of_neg (by simp [hfirst])
  have hright :
      (front ++ [last] ++ after).reverse.dropWhile isBlank = (front ++ [last]).reverse := by
    have hreverse : ∀ c ∈ after.reverse, isBlank c = true := fun c hc =>
      hafter c (List.mem_reverse.mp hc)
    rw [List.reverse_append, List.dropWhile_append_of_pos hreverse, List.reverse_append]
    exact List.dropWhile_cons_of_neg (by simp [hlast])
  rw [trimList, hleft, hsame, hright, List.reverse_reverse]

end Text

namespace Number

theorem ofDigits_paddedDigits (width n : Nat) : ofDigits (paddedDigits width n) = n := by
  have hzeros (k : Nat) : Nat.ofDigitChars 10 (List.replicate k '0') 0 = 0 := by
    induction k with
    | zero => rfl
    | succ k ih =>
      rw [List.replicate_succ, Nat.ofDigitChars_cons]
      exact ih
  rw [ofDigits, paddedDigits, Nat.ofDigitChars_append, hzeros]
  exact ofDigits_digits n

theorem paddedDigits_ne_nil (width n : Nat) : paddedDigits width n ≠ [] := by
  obtain ⟨c, cs, h, -⟩ := exists_paddedDigits_eq_cons width n
  simp [h]

theorem dropWhile_isBlank_paddedDigits (width n : Nat) (rest : List Char) :
    (paddedDigits width n ++ rest).dropWhile Text.isBlank = paddedDigits width n ++ rest := by
  obtain ⟨c, cs, h, hc⟩ := exists_paddedDigits_eq_cons width n
  rw [h, List.cons_append]
  exact List.dropWhile_cons_of_neg (by simp [Text.isBlank_of_isDigit hc])

end Number

namespace Time

open Number

theorem exactDigits_paddedDigits (width : Nat) {n : Nat} (h : n < 10 ^ (width + 1))
    (rest : List Char) :
    exactDigits (width + 1) (paddedDigits (width + 1) n ++ rest) = some (n, rest) := by
  have hlength := length_paddedDigits h
  have hdigits : (paddedDigits (width + 1) n).all isDigit = true :=
    List.all_eq_true.mpr fun c hc => isDigit_of_mem_paddedDigits hc
  rw [exactDigits, List.take_left' hlength, List.drop_left' hlength, if_pos ⟨hlength, hdigits⟩,
    ofDigits_paddedDigits]

theorem exactDigits_two {n : Nat} (h : n < 100) (rest : List Char) :
    exactDigits 2 (paddedDigits 2 n ++ rest) = some (n, rest) := exactDigits_paddedDigits 1 h rest

theorem exactDigits_cons_of_not_isDigit {c : Char} (h : isDigit c = false) (width : Nat)
    (rest : List Char) : exactDigits (width + 1) (c :: rest) = none := by
  rw [exactDigits, List.take_succ_cons]
  exact if_neg (by simp [h])

theorem exactChar_self (c : Char) (rest : List Char) : exactChar c (c :: rest) = some rest :=
  if_pos rfl

theorem looseNumber_paddedDigits (width : Nat) {n : Nat} (h : n < 10 ^ (width + 1))
    (rest : List Char) :
    looseNumber (width + 1) (paddedDigits (width + 1) n ++ rest) = some (n, rest) := by
  have hlength := length_paddedDigits h
  have htake : (paddedDigits (width + 1) n).takeWhile isDigit = paddedDigits (width + 1) n :=
    List.takeWhile_eq_self_iff.mpr fun c hc => isDigit_of_mem_paddedDigits hc
  rw [looseNumber, dropWhile_isBlank_paddedDigits, List.take_left' hlength, htake,
    if_neg (by simp [paddedDigits_ne_nil]), List.drop_left, ofDigits_paddedDigits]

theorem looseNumber_two {n : Nat} (h : n < 100) (rest : List Char) :
    looseNumber 2 (paddedDigits 2 n ++ rest) = some (n, rest) := looseNumber_paddedDigits 1 h rest

theorem looseNumber_cons_of_not_isDigit {c : Char} (hblank : Text.isBlank c = false)
    (hdigit : isDigit c = false) (width : Nat) (rest : List Char) :
    looseNumber width (c :: rest) = none := by
  rw [looseNumber, List.dropWhile_cons_of_neg (by simp [hblank])]
  cases width with
  | zero => rfl
  | succ width => simp [hdigit]

/-- A year is read with its sign, where no digit follows. -/
theorem looseYear_yearText (year : Int) {rest : List Char}
    (hrest : ∀ c ∈ rest.head?, isDigit c = false) :
    looseYear (Timestamp.yearText year ++ rest) = some (year, rest) := by
  by_cases hplain : 0 ≤ year ∧ year ≤ 9999
  · obtain ⟨c, cs, hcons, hc⟩ := exists_paddedDigits_eq_cons 4 year.natAbs
    rw [Timestamp.yearText, if_pos hplain, looseYear, dropWhile_isBlank_paddedDigits]
    split
    next heq =>
      rw [hcons] at heq
      cases heq
      cases hc
    next heq =>
      rw [hcons] at heq
      cases heq
      cases hc
    next =>
      rw [looseNumber_paddedDigits 3 (by omega)]
      simp [Int.natAbs_of_nonneg hplain.1]
  · have htake : (paddedDigits 4 year.natAbs ++ rest).takeWhile isDigit =
        paddedDigits 4 year.natAbs := by
      rw [List.takeWhile_append_of_pos fun c hc => isDigit_of_mem_paddedDigits hc]
      cases rest with
      | nil => exact List.append_nil _
      | cons c rest => rw [List.takeWhile_cons_of_neg (by simp [hrest c rfl]), List.append_nil]
    have hne : (paddedDigits 4 year.natAbs).isEmpty = false := by simp [paddedDigits_ne_nil]
    rw [Timestamp.yearText, if_neg hplain]
    by_cases hneg : year < 0
    · rw [if_pos hneg, List.cons_append, looseYear, List.dropWhile_cons_of_neg (by decide)]
      simp only [htake, hne, List.drop_left, ofDigits_paddedDigits, Bool.false_eq_true, if_false,
        Option.map_some]
      rw [Int.ofNat_natAbs_of_nonpos hneg.le, Int.neg_neg]
    · rw [if_neg hneg, List.cons_append, looseYear, List.dropWhile_cons_of_neg (by decide)]
      simp only [htake, hne, List.drop_left, ofDigits_paddedDigits, Bool.false_eq_true, if_false,
        Option.map_some]
      rw [Int.natAbs_of_nonneg (not_lt.mp hneg)]

/-- A fraction of a second as it is written: nothing, or a point and up to nine digits. -/
inductive SpellsFraction : List Char → Nat → Prop
  | nothing : SpellsFraction [] 0
  | digits {ds : List Char} (hne : ds ≠ []) (hlength : ds.length ≤ 9)
      (hdigits : ∀ c ∈ ds, isDigit c = true) :
      SpellsFraction ('.' :: ds) (ofDigits ds * pow10 (9 - ds.length))

/-- An offset as it is written, in seconds: a letter for none, or a sign, hours and minutes of less
than a day. The minus sign has two forms. -/
inductive SpellsOffset : List Char → Int → Prop
  | utc {c : Char} (hc : c ∈ ['Z', 'z']) : SpellsOffset [c] 0
  | ahead {minutes : Nat} (h : minutes < 1440) :
      SpellsOffset ('+' :: paddedDigits 2 (minutes / 60) ++ ':' :: paddedDigits 2 (minutes % 60))
        (minutes * 60)
  | behind {c : Char} {minutes : Nat} (hc : c ∈ ['-', '\u2212']) (h : minutes < 1440) :
      SpellsOffset (c :: paddedDigits 2 (minutes / 60) ++ ':' :: paddedDigits 2 (minutes % 60))
        (-(minutes * 60))

/-- Every offset of whole minutes and less than a day can be written. -/
theorem exists_spellsOffset {offset : Int} (hminutes : offset % 60 = 0)
    (hday : offset.natAbs < 86400) : ∃ zone, SpellsOffset zone offset := by
  have hlt : offset.natAbs / 60 < 1440 := by omega
  by_cases hneg : offset < 0
  · have heq : offset = -((offset.natAbs / 60 : Nat) * 60) := by omega
    rw [heq]
    exact ⟨_, .behind List.mem_cons_self (by omega)⟩
  · have heq : offset = (offset.natAbs / 60 : Nat) * 60 := by omega
    rw [heq]
    exact ⟨_, .ahead (by omega)⟩

/-- An offset begins with a letter or a sign. -/
theorem SpellsOffset.exists_cons {zone : List Char} {offset : Int} (h : SpellsOffset zone offset) :
    ∃ c rest, zone = c :: rest ∧ isDigit c = false ∧ c ≠ '.' := by
  cases h with
  | utc hc =>
    refine ⟨_, _, rfl, ?_⟩
    rcases List.mem_pair.mp hc with rfl | rfl <;> decide
  | ahead => exact ⟨_, _, rfl, by decide⟩
  | behind hc =>
    refine ⟨_, _, rfl, ?_⟩
    rcases List.mem_pair.mp hc with rfl | rfl <;> decide

theorem fractionNanos_of_spells {fraction : List Char} {nanos : Nat}
    (h : SpellsFraction fraction nanos) {c : Char} {rest : List Char} (hdigit : isDigit c = false)
    (hpoint : c ≠ '.') : fractionNanos (fraction ++ c :: rest) = some (nanos, c :: rest) := by
  cases h with
  | nothing =>
    rw [List.nil_append, fractionNanos]
    rintro cs hcs
    exact hpoint (List.cons.inj hcs).1
  | digits hne hlength hdigits =>
    rw [List.cons_append, fractionNanos, List.takeWhile_append_of_pos hdigits,
      List.dropWhile_append_of_pos hdigits, List.takeWhile_cons_of_neg (by simp [hdigit]),
      List.dropWhile_cons_of_neg (by simp [hdigit]), List.append_nil]
    simp only [List.isEmpty_iff, hne, if_false, List.take_of_length_le hlength]

theorem offsetSeconds_signed {c : Char} (hc : c = '+' ∨ c = '-' ∨ c = '\u2212') {minutes : Nat}
    (h : minutes < 1440) :
    offsetSeconds (c :: paddedDigits 2 (minutes / 60) ++ ':' :: paddedDigits 2 (minutes % 60)) =
      some (if c = '+' then (minutes : Int) * 60 else -(minutes * 60), []) := by
  have hletter : ¬ (c = 'Z' ∨ c = 'z') := by
    rcases hc with rfl | rfl | rfl <;> decide
  have hhours := exactDigits_two (n := minutes / 60) (by omega)
    (':' :: paddedDigits 2 (minutes % 60))
  have hminutes := exactDigits_two (n := minutes % 60) (by omega) []
  rw [List.append_nil] at hminutes
  rw [List.cons_append, offsetSeconds, if_neg hletter, if_pos hc]
  simp only [hhours, exactChar_self, hminutes, Option.bind_eq_bind, Option.bind_some]
  rw [if_pos (by omega)]
  have hsum : (((minutes / 60 * 60 + minutes % 60) * 60 : Nat) : Int) = minutes * 60 := by omega
  rw [hsum]

theorem offsetSeconds_of_spells {zone : List Char} {offset : Int} (h : SpellsOffset zone offset) :
    offsetSeconds zone = some (offset, []) := by
  cases h with
  | utc hc => rcases List.mem_pair.mp hc with rfl | rfl <;> rfl
  | ahead hminutes => exact offsetSeconds_signed (.inl rfl) hminutes
  | behind hc hminutes =>
    rw [offsetSeconds_signed (.inr (List.mem_pair.mp hc)) hminutes, if_neg]
    rcases List.mem_pair.mp hc with rfl | rfl <;> decide

end Time

end CatalogQuery
