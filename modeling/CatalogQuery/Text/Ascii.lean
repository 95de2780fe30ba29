/-!
# ASCII characters

Digits of both bases, the case of ASCII letters and comparisons that ignore it. Letters outside
ASCII have no case here.
-/
namespace CatalogQuery.Text

/-- The value of a hexadecimal digit of either case. -/
def hexValue? (c : Char) : Option Nat :=
  if '0' ≤ c ∧ c ≤ '9' then some (c.toNat - '0'.toNat)
  else if 'a' ≤ c ∧ c ≤ 'f' then some (c.toNat - 'a'.toNat + 10)
  else if 'A' ≤ c ∧ c ≤ 'F' then some (c.toNat - 'A'.toNat + 10)
  else none

/-- The lower-case hexadecimal digit of a number below sixteen. -/
def hexDigit (n : Nat) : Char :=
  if n < 10 then Char.ofNat ('0'.toNat + n) else Char.ofNat ('a'.toNat + (n - 10))

/-- The text with its ASCII capitals made small. -/
def foldCase (s : String) : List Char := s.toList.map Char.toLower

def sameUpToCase (a b : String) : Bool := foldCase a == foldCase b

theorem sameUpToCase_refl (a : String) : sameUpToCase a a = true := by simp [sameUpToCase]

/-- `sub` stands somewhere in `text` as a contiguous run. -/
def containsRun (sub : List Char) : List Char → Bool
  | [] => sub.isEmpty
  | c :: rest => sub.isPrefixOf (c :: rest) || containsRun sub rest

end CatalogQuery.Text
