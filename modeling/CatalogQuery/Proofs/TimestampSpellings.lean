import CatalogQuery.Proofs.FieldReading
import CatalogQuery.Statement.Param
/-!
# Spellings of one instant

An instant has many spellings: its text, the same with the letter T, the date alone at midnight, and
one for every offset from universal time, each with blanks around it. All of them are read as the
instant, with the fraction of a second that is written. No spelling is taken for one of another form,
because an offset stands where the others end, and the letter T is neither a blank nor a digit.
-/
namespace CatalogQuery.Time

open Number

def Date.chars (d : Date) : List Char :=
  Timestamp.yearText d.year ++ '-' :: paddedDigits 2 d.month ++ '-' :: paddedDigits 2 d.day

/-- The text ends with a character that is no blank. -/
def EndsPlainly (cs : List Char) : Prop :=
  ∃ front last, cs = front ++ [last] ∧ Text.isBlank last = false

theorem EndsPlainly.append {cs : List Char} (h : EndsPlainly cs) (front : List Char) :
    EndsPlainly (front ++ cs) := by
  obtain ⟨mid, last, rfl, hlast⟩ := h
  exact ⟨front ++ mid, last, (List.append_assoc _ _ _).symm, hlast⟩

theorem EndsPlainly.cons {cs : List Char} (h : EndsPlainly cs) (c : Char) : EndsPlainly (c :: cs) :=
  h.append [c]

theorem endsPlainly_paddedDigits (n : Nat) : EndsPlainly (paddedDigits 2 n) := by
  have hsplit : paddedDigits 2 n = _ := paddedDigits_succ 0 n
  have hmem : (n % 10).digitChar ∈ paddedDigits 2 n := by
    rw [hsplit]
    exact List.mem_append_right _ List.mem_cons_self
  exact ⟨_, _, hsplit, Text.isBlank_of_isDigit (isDigit_of_mem_paddedDigits hmem)⟩

theorem SpellsOffset.endsPlainly {zone : List Char} {offset : Int} (h : SpellsOffset zone offset) :
    EndsPlainly zone := by
  cases h with
  | utc hc =>
    refine ⟨[], _, rfl, ?_⟩
    rcases List.mem_pair.mp hc with rfl | rfl <;> decide
  | ahead | behind => exact ((endsPlainly_paddedDigits _).cons ':').append _

theorem Date.endsPlainly_chars (d : Date) : EndsPlainly d.chars :=
  ((endsPlainly_paddedDigits _).cons '-').append _

theorem Date.exists_chars_eq_cons (d : Date) :
    ∃ c cs, d.chars = c :: cs ∧ Text.isBlank c = false := by
  have hyear : ∃ c cs, Timestamp.yearText d.year = c :: cs ∧ Text.isBlank c = false := by
    by_cases hplain : 0 ≤ d.year ∧ d.year ≤ 9999
    · obtain ⟨c, cs, h, hc⟩ := exists_paddedDigits_eq_cons 4 d.year.natAbs
      exact ⟨c, cs, (if_pos hplain).trans h, Text.isBlank_of_isDigit hc⟩
    · obtain ⟨sign, hsign, h⟩ := Timestamp.exists_yearText_eq_cons hplain
      refine ⟨sign, _, h, ?_⟩
      rcases List.mem_pair.mp hsign with rfl | rfl <;> decide
  obtain ⟨c, cs, h, hc⟩ := hyear
  exact ⟨c, _, by rw [chars, h, List.cons_append, List.cons_append], hc⟩

namespace Timestamp

/-- The time of day as it is written, without its fraction. -/
def clockChars (t : Timestamp) : List Char :=
  paddedDigits 2 (t.secondOfDay / 3600) ++ ':' :: paddedDigits 2 (t.secondOfDay / 60 % 60) ++
    ':' :: paddedDigits 2 t.second

theorem chars_eq (t : Timestamp) : t.chars = t.date.chars ++ ' ' :: t.clockChars := by
  simp [chars, Date.chars, clockChars]

theorem endsPlainly_clockChars (t : Timestamp) : EndsPlainly t.clockChars :=
  ((endsPlainly_paddedDigits _).cons ':').append _

/-- A text that begins with a date is read without the blanks around it. -/
theorem parse?_around (before after tail : List Char) (d : Date)
    (hbefore : ∀ c ∈ before, Text.isBlank c = true) (hafter : ∀ c ∈ after, Text.isBlank c = true)
    (hend : EndsPlainly (d.chars ++ tail)) :
    parse? (String.ofList (before ++ (d.chars ++ tail) ++ after)) = ofChars? (d.chars ++ tail) := by
  obtain ⟨c, cs, hstart, hc⟩ := d.exists_chars_eq_cons
  rw [hstart, List.cons_append] at hend ⊢
  obtain ⟨front, last, hsame, hlast⟩ := hend
  rw [parse?, String.toList_ofList, Text.trimList_around hbefore hafter hc hlast hsame]

variable {t : Timestamp}

theorem month_date_lt (t : Timestamp) : t.date.month < 100 := Date.month_ofDays_lt _

theorem day_date_lt (t : Timestamp) : t.date.day < 100 := Date.day_ofDays_lt _

theorem looseDate_date (t : Timestamp) (rest : List Char) :
    looseDate (t.date.chars ++ rest) = some (t.date, rest) := by
  rw [Date.chars, List.append_assoc, List.append_assoc, looseDate,
    looseYear_yearText _ (by rintro c ⟨⟩; decide)]
  simp only [List.cons_append, exactChar_self, looseNumber_two t.month_date_lt,
    looseNumber_two t.day_date_lt, Option.bind_eq_bind, Option.bind_some]

/-- A date and a clock, whatever is passed between them. -/
theorem looseDateTime?_clock {between : List Char → Option (List Char)} {rest : List Char}
    (hbetween : between rest = some t.clockChars) :
    looseDateTime? between (t.date.chars ++ rest) =
      assemble? t.date (t.secondOfDay / 3600) (t.secondOfDay / 60 % 60) t.second 0 := by
  have hday := t.secondOfDay_lt
  have hlast := t.second_le
  have hsecond := looseNumber_two (n := t.second) (by omega) []
  rw [List.append_nil] at hsecond
  rw [looseDateTime?, looseDate_date]
  simp only [hbetween, clockChars, List.append_assoc, List.cons_append, exactChar_self,
    looseNumber_two (n := t.secondOfDay / 3600) (by omega),
    looseNumber_two (n := t.secondOfDay / 60 % 60) (by omega), hsecond, Option.bind_eq_bind,
    Option.bind_some, List.isEmpty_nil, if_true]

/-- No clock follows the date. -/
theorem looseDateTime?_eq_none {between : List Char → Option (List Char)} {rest : List Char}
    (hbetween : (between rest).bind (looseNumber 2) = none) :
    looseDateTime? between (t.date.chars ++ rest) = none := by
  rw [looseDateTime?, looseDate_date]
  simp only [Option.bind_eq_bind, Option.bind_some]
  cases h : between rest with
  | none => rfl
  | some cs =>
    rw [h, Option.bind_some] at hbetween
    rw [Option.bind_some, hbetween]
    rfl

theorem bind_of_eq_some {α β : Type} {o : Option α} {a : α} (h : o = some a) (f : α → Option β) :
    (o >>= f) = f a := by
  rw [h]
  rfl

/-- Four digits, a month and a day with hyphens before them. -/
theorem offsetDateTime?_date (hyear : t.HasPlainYear) (rest : List Char) :
    offsetDateTime? (t.date.chars ++ rest) = (do
      let cs ← exactChar 'T' rest <|> exactChar 't' rest <|> exactChar ' ' rest
      let (hour, cs) ← exactDigits 2 cs
      let cs ← exactChar ':' cs
      let (minute, cs) ← exactDigits 2 cs
      let cs ← exactChar ':' cs
      let (second, cs) ← exactDigits 2 cs
      let (nanos, cs) ← fractionNanos cs
      let (offset, cs) ← offsetSeconds cs
      if cs.isEmpty then do
        let u ← assemble? t.date hour minute second nanos
        some { u with seconds := u.seconds - offset }
      else none) := by
  have hnumber : (t.date.year.natAbs : Int) = t.date.year := Int.natAbs_of_nonneg hyear.1
  have hdate : (⟨t.date.year.natAbs, t.date.month, t.date.day⟩ : Date) = t.date := by rw [hnumber]
  have hwidth : t.date.year.natAbs < 10 ^ 4 := by
    have hhigh := hyear.2
    omega
  rw [Date.chars, hyear.yearText_eq, List.append_assoc, List.append_assoc, List.cons_append,
    List.cons_append, offsetDateTime?]
  refine (bind_of_eq_some (exactDigits_paddedDigits 3 hwidth _) _).trans ?_
  refine (bind_of_eq_some (exactChar_self _ _) _).trans ?_
  refine (bind_of_eq_some (exactDigits_two t.month_date_lt _) _).trans ?_
  refine (bind_of_eq_some (exactChar_self _ _) _).trans ?_
  refine (bind_of_eq_some (exactDigits_two t.day_date_lt _) _).trans ?_
  dsimp only
  rw [hdate]

/-- What stands after the seconds of a full date and clock. -/
theorem offsetDateTime?_clock (hyear : t.HasPlainYear) {separator : Char}
    (hseparator : separator ∈ ['T', 't', ' ']) (rest : List Char) :
    offsetDateTime? (t.date.chars ++ separator :: (t.clockChars ++ rest)) = (do
      let (nanos, cs) ← fractionNanos rest
      let (offset, cs) ← offsetSeconds cs
      if cs.isEmpty then do
        let u ← assemble? t.date (t.secondOfDay / 3600) (t.secondOfDay / 60 % 60) t.second nanos
        some { u with seconds := u.seconds - offset }
      else none) := by
  have hday := t.secondOfDay_lt
  have hlast := t.second_le
  have hpass (cs : List Char) : (exactChar 'T' (separator :: cs) <|>
      exactChar 't' (separator :: cs) <|> exactChar ' ' (separator :: cs)) = some cs := by
    simp only [List.mem_cons, List.not_mem_nil, or_false] at hseparator
    rcases hseparator with rfl | rfl | rfl <;> rfl
  rw [offsetDateTime?_date hyear, clockChars, List.append_assoc, List.append_assoc,
    List.cons_append, List.cons_append]
  refine (bind_of_eq_some (hpass _) _).trans ?_
  refine (bind_of_eq_some (exactDigits_two (by omega) _) _).trans ?_
  refine (bind_of_eq_some (exactChar_self _ _) _).trans ?_
  refine (bind_of_eq_some (exactDigits_two (by omega) _) _).trans ?_
  refine (bind_of_eq_some (exactChar_self _ _) _).trans ?_
  exact bind_of_eq_some (exactDigits_two (by omega) _) _

/-- A year with a sign is none of four digits. -/
theorem offsetDateTime?_signed (hyear : ¬ t.HasPlainYear) (rest : List Char) :
    offsetDateTime? (t.date.chars ++ rest) = none := by
  obtain ⟨sign, hsign, htext⟩ := exists_yearText_eq_cons hyear
  have hdigit : isDigit sign = false := by
    rcases List.mem_pair.mp hsign with rfl | rfl <;> decide
  rw [Date.chars, htext, List.append_assoc, List.append_assoc, List.cons_append, offsetDateTime?,
    exactDigits_cons_of_not_isDigit hdigit 3]
  rfl

def IsInRange (t : Timestamp) : Prop := minYear ≤ t.date.year ∧ t.date.year ≤ maxYear

theorem HasPlainYear.isInRange (h : t.HasPlainYear) : t.IsInRange :=
  ⟨h.1.trans' (by decide), h.2.trans (by decide)⟩

section Spelled

variable (hcivil : t.IsCivil) (hwhole : t.wholeSecond = t)

include hcivil hwhole

theorem assemble?_fields (hrange : t.IsInRange) (nanos : Nat) :
    assemble? t.date (t.secondOfDay / 3600) (t.secondOfDay / 60 % 60) t.second nanos =
      some { t with nanos := t.nanos + nanos } := by
  have hvalid : t.date.isValid = true :=
    (Date.isValid_iff _).mpr ⟨hrange, Date.isOfCalendar_ofDays _⟩
  have hday := t.secondOfDay_lt
  rw [assemble?, if_pos ⟨hvalid, by omega, by omega, t.second_le⟩, ofCivil_fields hcivil hwhole]

/-- With a blank or the letter T between them, date and clock give the instant. -/
theorem ofChars?_clock (hrange : t.IsInRange) {separator : Char}
    (hseparator : separator ∈ [' ', 'T']) :
    ofChars? (t.date.chars ++ separator :: t.clockChars) = some t := by
  have hfields := assemble?_fields hcivil hwhole hrange 0
  obtain ⟨c, cs, hclock, hc⟩ := exists_paddedDigits_eq_cons 2 (t.secondOfDay / 3600)
  have hoffset : offsetDateTime? (t.date.chars ++ separator :: t.clockChars) = none := by
    by_cases hyear : t.HasPlainYear
    · rw [← List.append_nil t.clockChars, offsetDateTime?_clock hyear]
      · rfl
      · rcases List.mem_pair.mp hseparator with rfl | rfl <;> decide
    · exact offsetDateTime?_signed hyear _
  rw [ofChars?, hoffset]
  rcases List.mem_pair.mp hseparator with rfl | rfl
  · rw [looseDateTime?_clock (t := t), hfields]
    · rfl
    · rw [List.dropWhile_cons_of_pos (by decide), clockChars, List.append_assoc,
        dropWhile_isBlank_paddedDigits]
  · rw [looseDateTime?_eq_none, looseDateTime?_clock (t := t), hfields]
    · rfl
    · rfl
    · rw [List.dropWhile_cons_of_neg (by decide), Option.bind_some,
        looseNumber_cons_of_not_isDigit (by decide) (by decide)]

/-- At midnight the date alone gives the instant. -/
theorem ofChars?_date (hrange : t.IsInRange) (hmidnight : t.seconds % secondsPerDay = 0) :
    ofChars? t.date.chars = some t := by
  have hfields := assemble?_fields hcivil hwhole hrange 0
  have hday : t.secondOfDay = 0 := by rw [secondOfDay, hmidnight]; rfl
  have hsecond : t.second = 0 := by
    have hleap : ¬ nanosPerSecond ≤ t.nanos := fun h => by
      have hlast := hcivil h
      rw [secondsPerDay] at hmidnight
      omega
    rw [second, hday, if_neg hleap]
  have hoffset : offsetDateTime? t.date.chars = none := by
    by_cases hyear : t.HasPlainYear
    · rw [← List.append_nil t.date.chars, offsetDateTime?_date hyear]
      rfl
    · rw [← List.append_nil t.date.chars, offsetDateTime?_signed hyear]
  have hdate := looseDate_date t []
  rw [List.append_nil] at hdate
  rw [hday, hsecond] at hfields
  rw [ofChars?, hoffset, ← List.append_nil t.date.chars, looseDateTime?_eq_none rfl,
    looseDateTime?_eq_none rfl, List.append_nil, dateOnly?]
  refine (bind_of_eq_some hdate _).trans ?_
  exact hfields

end Spelled

/-- The same instant on a clock that is ahead by so many seconds. -/
def ahead (t : Timestamp) (offset : Int) : Timestamp := { t with seconds := t.seconds + offset }

/-- The local date and clock with their offset give the instant and the fraction that is written. -/
theorem ofChars?_offset (hcivil : t.IsCivil) (hwhole : t.wholeSecond = t) {offset : Int}
    {zone fraction : List Char} {nanos : Nat} (hzone : SpellsOffset zone offset)
    (hfraction : SpellsFraction fraction nanos) (hyear : (t.ahead offset).HasPlainYear)
    {separator : Char} (hseparator : separator ∈ ['T', 't', ' ']) :
    ofChars? ((t.ahead offset).date.chars ++
        separator :: ((t.ahead offset).clockChars ++ (fraction ++ zone))) =
      some { t with nanos := t.nanos + nanos } := by
  have hminutes := offsetSeconds_emod (offsetSeconds_of_spells hzone)
  have hcivilAhead : (t.ahead offset).IsCivil := fun hleap => by
    have hlast := hcivil hleap
    show (t.seconds + offset) % 60 = 59
    omega
  have hwholeAhead : (t.ahead offset).wholeSecond = t.ahead offset := by
    have hnanos : _ = t.nanos := congrArg Timestamp.nanos hwhole
    rw [wholeSecond, ahead]
    exact congrArg _ hnanos
  have hfields := assemble?_fields hcivilAhead hwholeAhead hyear.isInRange nanos
  obtain ⟨c, rest, hcons, hdigit, hpoint⟩ := hzone.exists_cons
  have hread : fractionNanos (fraction ++ zone) = some (nanos, zone) := by
    rw [hcons]
    exact fractionNanos_of_spells hfraction hdigit hpoint
  have hspelled : offsetDateTime? ((t.ahead offset).date.chars ++
      separator :: ((t.ahead offset).clockChars ++ (fraction ++ zone))) =
        some { t with nanos := t.nanos + nanos } := by
    rw [offsetDateTime?_clock hyear hseparator]
    refine (bind_of_eq_some hread _).trans ?_
    refine (bind_of_eq_some (offsetSeconds_of_spells hzone) _).trans ?_
    refine (bind_of_eq_some hfields _).trans ?_
    show some (Timestamp.mk (t.seconds + offset - offset) _) = _
    rw [Int.add_sub_cancel]
    rfl
  rw [ofChars?, hspelled]
  rfl

/-- A day more or less leaves the years of four digits by one year at most. -/
theorem isInRange_of_near {u : Timestamp} (hyear : u.HasPlainYear) {offset : Int}
    (hday : offset.natAbs < 86400) :
    IsInRange { t with seconds := u.seconds - offset } := by
  obtain ⟨hlow, hhigh⟩ := hyear
  have hfirst : (Date.ofDays (Date.toDays ⟨-1, 12, 31⟩)).year = -1 := by decide
  have hlast : (Date.ofDays (Date.toDays ⟨10000, 1, 1⟩)).year = 10000 := by decide
  have hafter : Date.toDays ⟨-1, 12, 31⟩ < u.seconds / secondsPerDay :=
    Date.lt_of_year_ofDays_lt (hfirst.trans_lt (by rw [date] at hlow; omega))
  have hbefore : u.seconds / secondsPerDay < Date.toDays ⟨10000, 1, 1⟩ :=
    Date.lt_of_year_ofDays_lt (hlast.trans_gt (by rw [date] at hhigh; omega))
  rw [secondsPerDay] at hafter hbefore
  have hlower : (Date.ofDays (Date.toDays ⟨-1, 12, 31⟩)).year ≤
      (Date.ofDays ((u.seconds - offset) / 86400)).year := Date.year_ofDays_mono (by omega)
  have hupper : (Date.ofDays ((u.seconds - offset) / 86400)).year ≤
      (Date.ofDays (Date.toDays ⟨10000, 1, 1⟩)).year := Date.year_ofDays_mono (by omega)
  rw [hfirst] at hlower
  rw [hlast] at hupper
  exact ⟨hlower.trans' (by decide), hupper.trans (by decide)⟩

theorem date_of_assemble? {d : Date} {hour minute second nanos : Nat}
    (h : assemble? d hour minute second nanos = some t) : t.date = d ∧ t.IsInRange := by
  rw [assemble?] at h
  split at h
  next hvalid =>
    obtain ⟨hd, hhour, hminute, hsecond⟩ := hvalid
    obtain ⟨hrange, hcalendar⟩ := (Date.isValid_iff d).mp hd
    cases h
    have hdate : (ofCivil d hour minute second nanos).date = d :=
      date_ofCivil hcalendar hhour hminute hsecond
    rw [IsInRange, hdate]
    exact ⟨rfl, hrange⟩
  next => cases h

theorem isInRange_of_parse? {s : String} (h : parse? s = some t) : t.IsInRange := by
  cases isAssembled_of_parse? h with
  | whole h => exact (date_of_assemble? h).2
  | offset h _ hyear _ hday heq =>
    obtain ⟨hdate, -⟩ := date_of_assemble? h
    subst heq
    exact isInRange_of_near (by rwa [HasPlainYear, hdate]) hday

theorem wholeSecond_wholeSecond (t : Timestamp) : t.wholeSecond.wholeSecond = t.wholeSecond := by
  rw [wholeSecond, wholeSecond]
  congr 1
  split <;> simp_all

/-- A fraction is not written. -/
theorem text_wholeSecond (t : Timestamp) : t.wholeSecond.text = t.text := by
  have hsecond : t.wholeSecond.second = t.second := by
    rw [second, second, wholeSecond]
    congr 1
    by_cases hleap : nanosPerSecond ≤ t.nanos
    · rw [if_pos hleap, if_pos hleap, if_pos (Nat.le_refl _)]
    · rw [if_neg hleap, if_neg hleap, if_neg (show ¬ nanosPerSecond ≤ 0 by decide)]
  rw [text, text, chars_eq, chars_eq, clockChars, clockChars, hsecond]
  rfl

theorem isCivil_wholeSecond (h : t.IsCivil) : t.wholeSecond.IsCivil := by
  rw [IsCivil, wholeSecond]
  intro hleap
  by_cases hnanos : nanosPerSecond ≤ t.nanos
  · exact h hnanos
  · rw [if_neg hnanos] at hleap
    exact absurd hleap (show ¬ nanosPerSecond ≤ 0 by decide)

theorem parse?_text (hcivil : t.IsCivil) (hrange : t.IsInRange) :
    parse? t.text = some t.wholeSecond := by
  have hread := parse?_around [] [] _ t.date (by simp) (by simp)
    ((t.wholeSecond.endsPlainly_clockChars.cons ' ').append _)
  rw [List.nil_append, List.append_nil] at hread
  rw [← text_wholeSecond, text, chars_eq]
  exact hread.trans (ofChars?_clock (isCivil_wholeSecond hcivil) (wholeSecond_wholeSecond t) hrange
    List.mem_cons_self)

/-- All spellings of an instant are read as it: its text; with any blanks around them, the date and
the clock with a space or the letter T between them, and at midnight the date alone; and the local
date and clock at every offset of whole minutes that leaves the year at four digits, with the
fraction that is written. What is read from any text has a text that is read and written again as it
is. -/
theorem spellings_parse :
    (∀ t : Timestamp, t.IsCivil → t.wholeSecond = t → t.IsInRange →
        ∃ s, Param.ofScalar (.timestamp t) = .text s ∧ parse? s = some t) ∧
      (∀ (raw : String) (t : Timestamp), parse? raw = some t →
        ∃ s u, Param.ofScalar (.timestamp t) = .text s ∧ parse? s = some u ∧
          Param.ofScalar (.timestamp u) = .text s) ∧
      (∀ (t : Timestamp) (before after : List Char), t.IsCivil → t.wholeSecond = t →
        (∀ c ∈ before, Text.isBlank c = true) → (∀ c ∈ after, Text.isBlank c = true) →
        (∀ (offset : Int) (zone fraction : List Char) (nanos : Nat), SpellsOffset zone offset →
            SpellsFraction fraction nanos → (t.ahead offset).HasPlainYear →
            ∀ separator ∈ ['T', 't', ' '],
              parse? (String.ofList (before ++ ((t.ahead offset).date.chars ++
                  separator :: ((t.ahead offset).clockChars ++ (fraction ++ zone))) ++ after)) =
                some { t with nanos := t.nanos + nanos }) ∧
          (t.IsInRange →
            (∀ separator ∈ [' ', 'T'],
              parse? (String.ofList
                  (before ++ (t.date.chars ++ separator :: t.clockChars) ++ after)) = some t) ∧
              (t.seconds % secondsPerDay = 0 →
                parse? (String.ofList (before ++ t.date.chars ++ after)) = some t))) ∧
      ∀ offset : Int, offset % 60 = 0 → offset.natAbs < 86400 →
        ∃ zone, SpellsOffset zone offset := by
  refine ⟨?_, ?_, ?_, ?_⟩
  · intro t hcivil hwhole hrange
    exact ⟨t.text, rfl, (parse?_text hcivil hrange).trans (congrArg some hwhole)⟩
  · intro raw t hraw
    refine ⟨t.text, t.wholeSecond, rfl,
      parse?_text (isCivil_of_parse? hraw) (isInRange_of_parse? hraw), ?_⟩
    rw [← text_wholeSecond t]
    rfl
  · intro t before after hcivil hwhole hbefore hafter
    refine ⟨?_, fun hrange => ⟨?_, ?_⟩⟩
    · intro offset zone fraction nanos hzone hfraction hyear separator hseparator
      have hend := (((hzone.endsPlainly.append fraction).append
        (t.ahead offset).clockChars).cons separator).append (t.ahead offset).date.chars
      rw [parse?_around _ _ _ _ hbefore hafter hend]
      exact ofChars?_offset hcivil hwhole hzone hfraction hyear hseparator
    · intro separator hseparator
      rw [parse?_around _ _ _ _ hbefore hafter ((t.endsPlainly_clockChars.cons separator).append _)]
      exact ofChars?_clock hcivil hwhole hrange hseparator
    · intro hmidnight
      have hread := parse?_around _ _ [] t.date hbefore hafter
        (by rw [List.append_nil]; exact t.date.endsPlainly_chars)
      rw [List.append_nil] at hread
      rw [hread]
      exact ofChars?_date hcivil hwhole hrange hmidnight
  · exact fun offset => exists_spellsOffset

namespace YearEnds

/-- The leap second at the end of 2016. -/
def leapSecond : Timestamp := ⟨1483228799, 1000000000⟩

/-- An evening of 9999 on a clock behind, which is in the year after it. -/
def lateEvening : String := "9999-12-31T23:59:59.75-08:00"

theorem parse?_lateEvening : parse? lateEvening = some ⟨253402329599, 750000000⟩ := by
  decide +kernel

/-- The leap second is read from its text, with blanks around it, with the letter T, and on the next
morning of a clock nine hours ahead, there with half a second more; the text of the late evening is
read and written as it is; a leap day is read as its midnight. -/
theorem leapSecond_spellings :
    parse? "2016-12-31 23:59:60" = some leapSecond ∧
      (∃ u, parse? "+10000-01-01 07:59:59" = some u ∧ u.text = "+10000-01-01 07:59:59") ∧
      parse? "\u00a02017-01-01t08:59:60.5+09:00\n" = some ⟨1483228799, 1500000000⟩ ∧
      parse? "\u00a02016-12-31T23:59:60\n" = some leapSecond ∧
      parse? "\u00a02000-02-29\n" = some ⟨951782400, 0⟩ ∧
      ∃ zone, SpellsOffset zone (-86340) := by
  obtain ⟨htext, hraw, hspelled, hzones⟩ := spellings_parse
  have hbefore : ∀ c ∈ ['\u00a0'], Text.isBlank c = true := List.forall_mem_singleton.mpr rfl
  have hafter : ∀ c ∈ ['\n'], Text.isBlank c = true := List.forall_mem_singleton.mpr rfl
  have hhalf : ∀ c ∈ ['5'], isDigit c = true := List.forall_mem_singleton.mpr rfl
  have hcivil : leapSecond.IsCivil := fun _ => rfl
  have hrange : leapSecond.IsInRange := ⟨by decide, by decide⟩
  obtain ⟨hoffset, hclock⟩ := hspelled leapSecond _ _ hcivil rfl hbefore hafter
  refine ⟨?_, ?_, ?_, ?_, ?_, hzones _ (by decide) (by decide)⟩
  · obtain ⟨s, hs, hread⟩ := htext leapSecond hcivil rfl hrange
    have hsame : leapSecond.text = "2016-12-31 23:59:60" := by decide +kernel
    rwa [← Param.text.inj hs, hsame] at hread
  · obtain ⟨s, u, hs, hread, hu⟩ := hraw lateEvening _ parse?_lateEvening
    have hsame : s = "+10000-01-01 07:59:59" := (Param.text.inj hs).symm.trans (by decide +kernel)
    rw [hsame] at hread hu
    exact ⟨u, hread, Param.text.inj hu⟩
  · exact hoffset _ _ _ _ (.ahead (show 540 < 1440 by decide))
      (.digits (by decide) (by decide) hhalf) ⟨by decide, by decide⟩ 't' (by decide)
  · exact (hclock hrange).1 'T' (by decide)
  · exact ((hspelled ⟨951782400, 0⟩ _ _ (fun h => absurd h (by decide)) rfl hbefore hafter).2
      ⟨by decide, by decide⟩).2 rfl

end YearEnds

end Timestamp

end CatalogQuery.Time
