/-!
# Powers

Powers of the two bases that numbers are written in, and the integers that fit sixty-four bits with a
sign.
-/
namespace CatalogQuery

abbrev pow2 (n : Nat) : Nat := Nat.pow 2 n

abbrev pow10 (n : Nat) : Nat := Nat.pow 10 n

/-- The least integer of sixty-four bits with a sign. -/
def minInt64 : Int := -0x8000000000000000

/-- The greatest integer of sixty-four bits with a sign. -/
def maxInt64 : Int := 0x7FFFFFFFFFFFFFFF

example : maxInt64 + 1 = pow2 63 := by decide +kernel
example : minInt64 = -(pow2 63 : Int) := by decide +kernel

end CatalogQuery
