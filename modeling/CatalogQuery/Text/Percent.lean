import CatalogQuery.Bytes.Basic
import CatalogQuery.Text.Ascii
/-!
# Percent-encoded texts

A byte may be written as a percent sign and two hexadecimal digits; a percent sign without them stands
for itself. The parameters of an address are pairs of a key and a value between ampersands, in which
a plus sign stands for a space.
-/
namespace CatalogQuery.Text.Percent

/-- The byte that two hexadecimal digits stand for. -/
def hexByte? (high low : UInt8) : Option UInt8 := do
  let h ← hexValue? (Char.ofNat high.toNat)
  let l ← hexValue? (Char.ofNat low.toNat)
  some (.ofNat (h * 16 + l))

def decode : List UInt8 → List UInt8
  | 0x25 :: high :: low :: rest =>
    match hexByte? high low with
    | some b => b :: decode rest
    | none => 0x25 :: decode (high :: low :: rest)
  | b :: rest => b :: decode rest
  | [] => []

def decodeText? (s : String) : Option String := Bytes.toString? (decode (Bytes.ofString s))

/-- The text of a key or value among the parameters; bytes that are no text stand for no text that
is asked for. -/
def parameterText (cs : List Char) : String :=
  (decodeText? (String.ofList (cs.map fun c => if c = '+' then ' ' else c))).getD "\uFFFD"

/-- The pieces between the marks; there is one more of them than there are marks. -/
def pieces (mark : Char) : List Char → List (List Char)
  | [] => [[]]
  | c :: cs =>
    if c = mark then [] :: pieces mark cs
    else
      match pieces mark cs with
      | [] => [[c]]
      | p :: ps => (c :: p) :: ps

/-- The parameters in order; a key without an equals sign has an empty value. -/
def parameters (cs : List Char) : List (String × String) :=
  ((pieces '&' cs).filter (· ≠ [])).map fun pair =>
    (parameterText (pair.takeWhile (· != '=')), parameterText ((pair.dropWhile (· != '=')).drop 1))

example : decodeText? "a%20b%2fc%" = some "a b/c%" := by decide +kernel
example : parameters "mode=ro&&x+y=%31&z".toList = [("mode", "ro"), ("x y", "1"), ("z", "")] := by
  decide +kernel
end CatalogQuery.Text.Percent
