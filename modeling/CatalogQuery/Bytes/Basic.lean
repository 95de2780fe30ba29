/-!
# Byte strings

Big-endian words and the UTF-8 bytes of texts, as lists.
-/
namespace CatalogQuery.Bytes

def ofString (s : String) : List UInt8 := s.toUTF8.data.toList

/-- The text whose UTF-8 bytes these are, if there is one. -/
def toString? (bs : List UInt8) : Option String := String.fromUTF8? ⟨bs.toArray⟩

/-- The last `count` bytes of a number, the most significant first. -/
def bigEndian : Nat → Nat → List UInt8
  | 0, _ => []
  | count + 1, n => UInt8.ofNat (n / Nat.pow 256 count) :: bigEndian count n

@[simp] theorem length_bigEndian (count n : Nat) : (bigEndian count n).length = count := by
  induction count with
  | zero => rfl
  | succ count ih => simp [bigEndian, ih]

end CatalogQuery.Bytes
