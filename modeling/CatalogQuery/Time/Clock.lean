import CatalogQuery.Number.Digits
import CatalogQuery.Time.Civil
/-!
# Clock readings

The date and the time of day of a clock that counts seconds from the first of January 1970, in
universal time.
-/
namespace CatalogQuery.Time

/-- Year, month and day, with hyphens between them. -/
def dateText (seconds : Int) : String :=
  let d := Date.ofDays (seconds / 86400)
  String.ofList <|
    Number.paddedDigits 4 d.year.natAbs ++ '-' :: Number.paddedDigits 2 d.month ++
      '-' :: Number.paddedDigits 2 d.day

/-- Hour, minute and second, with colons between them. -/
def timeText (seconds : Int) : String :=
  let n := (seconds % 86400).toNat
  String.ofList <|
    Number.paddedDigits 2 (n / 3600) ++ ':' :: Number.paddedDigits 2 (n / 60 % 60) ++
      ':' :: Number.paddedDigits 2 (n % 60)

example : dateText 1709210096 = "2024-02-29" := by decide +kernel
example : timeText 1709210096 = "12:34:56" := by decide +kernel

end CatalogQuery.Time
