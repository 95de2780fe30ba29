import CatalogQuery.Number.Overflow
import CatalogQuery.Time.Timestamp
/-!
# Readings of the clock

The program takes the time from a clock in seconds. The clock belongs to the calendar: it cannot tell a
second outside of it.
-/
namespace CatalogQuery.Time

structure Reading where
  seconds : Int64
  onCalendar : Timestamp.IsOnCalendar seconds.toInt
  deriving DecidableEq, Repr

namespace Reading

instance : Coe Reading Int64 := ⟨seconds⟩

instance : Coe Reading Int := ⟨fun t => t.seconds.toInt⟩

/-- The second of the calendar that is nearest. -/
def ofInt (seconds : Int) : Reading where
  seconds := .ofInt (max Timestamp.firstSecond (min seconds Timestamp.lastSecond))
  onCalendar := by
    have hclamped : Timestamp.IsOnCalendar
        (max Timestamp.firstSecond (min seconds Timestamp.lastSecond)) := by
      have hle : Timestamp.firstSecond ≤ Timestamp.lastSecond := by decide +kernel
      exact ⟨by omega, by omega⟩
    obtain ⟨hlow, hhigh⟩ := hclamped.bounds
    rwa [Int64.toInt_ofInt_of_le (by omega) (by omega)]

instance (n : Nat) : OfNat Reading n := ⟨.ofInt n⟩

/-- Seconds of the calendar are never too far apart. -/
theorem subFits (t : Reading) {second : Int64} (h : Timestamp.IsOnCalendar second.toInt) :
    Overflow.subFits t second = true := by
  obtain ⟨hfirst, hlast⟩ := t.onCalendar.bounds
  obtain ⟨hfirst', hlast'⟩ := h.bounds
  refine Overflow.subFits_of_bounds ?_ ?_
  · rw [minInt64]
    omega
  · rw [maxInt64]
    omega

end Reading

end CatalogQuery.Time
