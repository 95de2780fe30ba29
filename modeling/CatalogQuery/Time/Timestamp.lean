import CatalogQuery.Time.Civil
import CatalogQuery.Number.Digits
/-!
# Timestamps

An instant is a second of universal time and nanoseconds within it. A leap second is the second
before it with a thousand million nanoseconds more, and is written with the second 60.
-/
namespace CatalogQuery.Time

def secondsPerDay : Int := 86400

def nanosPerSecond : Nat := 1000000000

/-- An instant: seconds from the first of January 1970, and nanoseconds. -/
structure Timestamp where
  seconds : Int
  nanos : Nat
  deriving DecidableEq, Repr, Inhabited

namespace Timestamp

/-- A time of day on a date, leap seconds as seconds 60. -/
def ofCivil (d : Date) (hour minute second nanos : Nat) : Timestamp :=
  let start := d.toDays * secondsPerDay + ((hour * 60 + minute) * 60 : Nat)
  if second = 60 then ⟨start + 59, nanosPerSecond + nanos⟩ else ⟨start + second, nanos⟩

def order (a b : Timestamp) : Ordering :=
  (compare a.seconds b.seconds).then (compare a.nanos b.nanos)

def date (t : Timestamp) : Date := Date.ofDays (t.seconds / secondsPerDay)

def secondOfDay (t : Timestamp) : Nat := (t.seconds % secondsPerDay).toNat

/-- The second of the minute, 60 in a leap second. -/
def second (t : Timestamp) : Nat :=
  t.secondOfDay % 60 + (if nanosPerSecond ≤ t.nanos then 1 else 0)

/-- Four digits for the years from 0 to 9999, otherwise a sign and at least four digits. -/
def yearText (year : Int) : List Char :=
  if 0 ≤ year ∧ year ≤ 9999 then Number.paddedDigits 4 year.natAbs
  else (if year < 0 then '-' else '+') :: Number.paddedDigits 4 year.natAbs

/-- The text of an instant as `2024-05-01 09:30:00`; nanoseconds are not written. -/
def chars (t : Timestamp) : List Char :=
  let d := t.date
  yearText d.year ++ '-' :: Number.paddedDigits 2 d.month ++ '-' :: Number.paddedDigits 2 d.day ++
    ' ' :: Number.paddedDigits 2 (t.secondOfDay / 3600) ++
    ':' :: Number.paddedDigits 2 (t.secondOfDay / 60 % 60) ++
    ':' :: Number.paddedDigits 2 t.second

def text (t : Timestamp) : String := String.ofList t.chars

def firstSecond : Int := (Date.mk minYear 1 1).toDays * secondsPerDay

def lastSecond : Int := (Date.mk maxYear 12 31).toDays * secondsPerDay + (secondsPerDay - 1)

/-- The second is one of a day of the calendar. -/
def IsOnCalendar (second : Int) : Prop := firstSecond ≤ second ∧ second ≤ lastSecond

instance : DecidablePred IsOnCalendar := fun second =>
  inferInstanceAs (Decidable (firstSecond ≤ second ∧ second ≤ lastSecond))

/-- The seconds of the calendar fit sixty-three bits many times over. -/
theorem IsOnCalendar.bounds {second : Int} (h : IsOnCalendar second) :
    -0x4000000000000000 ≤ second ∧ second < 0x4000000000000000 := by
  obtain ⟨hfirst, hlast⟩ := h
  have hlow : -0x4000000000000000 ≤ firstSecond := by decide +kernel
  have hhigh : lastSecond < 0x4000000000000000 := by decide +kernel
  omega

example : (ofCivil ⟨2024, 5, 1⟩ 9 30 0 0).chars = "2024-05-01 09:30:00".toList := by decide +kernel
example : (ofCivil ⟨2016, 12, 31⟩ 23 59 60 0).chars = "2016-12-31 23:59:60".toList := by
  decide +kernel
example : (ofCivil ⟨-1, 1, 1⟩ 0 0 0 0).chars = "-0001-01-01 00:00:00".toList := by decide +kernel

end Timestamp

end CatalogQuery.Time
