import CatalogQuery.Text.Ascii
/-!
# Identifiers from random bytes

Sixteen bytes as hexadecimal digits in groups of eight, four, four, four and twelve, with a digit for
the version, which is four, and two bits for the variant.
-/
namespace CatalogQuery.Text

def hexByte (n : Nat) : List Char := [hexDigit (n / 16 % 16), hexDigit (n % 16)]

def markedByte (index n : Nat) : Nat :=
  if index = 6 then 0x40 + n % 16
  else if index = 8 then 0x80 + n % 64
  else n

def uuidFrom : Nat → List Nat → List Char
  | _, [] => []
  | index, n :: rest =>
    (if index = 4 ∨ index = 6 ∨ index = 8 ∨ index = 10 then ['-'] else []) ++
      hexByte (markedByte index n) ++ uuidFrom (index + 1) rest

def uuid (bytes : List Nat) : String := String.ofList (uuidFrom 0 bytes)

def isUuid (s : String) : Bool :=
  s.length == 36 && s.toList.zipIdx.all fun (c, i) =>
    if i = 8 ∨ i = 13 ∨ i = 18 ∨ i = 23 then c == '-'
    else if i = 14 then c == '4'
    else (hexValue? c).isSome

example : isUuid (uuid (List.range 16)) = true := by decide +kernel

end CatalogQuery.Text
