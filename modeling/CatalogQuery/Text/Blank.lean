/-!
# Blank characters

The characters of the Unicode property White_Space, and trimming by them.
-/
namespace CatalogQuery.Text

/-- The property White_Space: twenty-five characters in ten ranges. -/
def isBlank (c : Char) : Bool :=
  let n := c.toNat
  (0x9 ≤ n && n ≤ 0xD) || n == 0x20 || n == 0x85 || n == 0xA0 || n == 0x1680 ||
    (0x2000 ≤ n && n ≤ 0x200A) || n == 0x2028 || n == 0x2029 || n == 0x202F ||
    n == 0x205F || n == 0x3000

/-- The list without its blank head and tail. -/
def trimList (cs : List Char) : List Char :=
  ((cs.dropWhile isBlank).reverse.dropWhile isBlank).reverse

/-- The text without blanks at either end. -/
def trim (s : String) : String := String.ofList (trimList s.toList)

def isAllBlank (s : String) : Bool := s.toList.all isBlank

end CatalogQuery.Text
