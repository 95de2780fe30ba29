import CatalogQuery.Bytes.Basic
import CatalogQuery.Number.Layout
import CatalogQuery.Number.Prefix
import CatalogQuery.Statement.Param
/-!
# Stored values

A stored value has a class of its own, whatever the kind of its field. All values are ordered: null,
then numbers by their exact value, then texts and then byte strings, both byte by byte. Texts that
stand for numbers are read as far as they look like one.
-/
namespace CatalogQuery

inductive Cell
  | null
  | integer (n : Int64)
  | real (x : Binary64)
  | text (s : String)
  | blob (bytes : List UInt8)
  deriving DecidableEq, Repr, Inhabited

def Bytes.order : List UInt8 → List UInt8 → Ordering
  | [], [] => .eq
  | [], _ :: _ => .lt
  | _ :: _, [] => .gt
  | a :: as, b :: bs => (compare a.toNat b.toNat).then (Bytes.order as bs)

namespace Cell

def isNull : Cell → Bool
  | .null => true
  | _ => false

/-- A parameter as a stored value: truth values are the numbers one and zero. -/
def ofParam : Param → Cell
  | .text s => .text s
  | .integer n => .integer n
  | .real x => if x.isNaN then .null else .real x
  | .bool b => .integer (if b then 1 else 0)
  | .null => .null

def classRank : Cell → Nat
  | .null => 0
  | .integer _ | .real _ => 1
  | .text _ => 2
  | .blob _ => 3

def order : Cell → Cell → Ordering
  | .integer a, .integer b => compare a.toInt b.toInt
  | .integer a, .real b => compare (Binary64.scaleInt a.toInt) b.scaled
  | .real a, .integer b => compare a.scaled (Binary64.scaleInt b.toInt)
  | .real a, .real b => compare a.scaled b.scaled
  | .text a, .text b => compare a b
  | .blob a, .blob b => Bytes.order a b
  | a, b => compare a.classRank b.classRank

/-- The value as characters, those of a byte string one to the byte. -/
def chars : Cell → List Char
  | .null => []
  | .integer n => Number.intText n.toInt
  | .real x => Number.storedText x
  | .text s => s.toList
  | .blob bytes => bytes.map fun b => Char.ofNat b.toNat

def bytes : Cell → List UInt8
  | .blob bytes => bytes
  | c => Bytes.ofString (String.ofList c.chars)

def leadingNumber (c : Cell) : Number.NumberPrefix := Number.numberPrefix c.chars

def integer? (c : Cell) : Option Int64 :=
  let p := c.leadingNumber
  if p.isAll && p.isWhole then Scalar.int64? p.wholePart else none

/-- The value with a text that is a number, and nothing else, made that number. -/
def asNumber : Cell → Cell
  | .text s =>
    let c := Cell.text s
    match c.integer? with
    | some n => .integer n
    | none => if c.leadingNumber.isAll then .real c.leadingNumber.real else c
  | c => c

def asText (c : Cell) : Cell :=
  match c with
  | .integer _ | .real _ => .text (String.ofList c.chars)
  | c => c

/-- What a value counts in a sum. -/
inductive Quantity
  | integer (n : Int64)
  | real (x : Binary64)
  deriving DecidableEq, Repr

/-- The quantity of a value; a text that is a whole number counts as an integer, any other text or
byte string as the number it begins with. -/
def quantity : Cell → Quantity
  | .null => .integer 0
  | .integer n => .integer n
  | .real x => .real x
  | .text s =>
    match (Cell.text s).integer? with
    | some n => .integer n
    | none => .real (Cell.text s).leadingNumber.real
  | .blob bytes => .real (Cell.blob bytes).leadingNumber.real

/-- Whether the value, cut to an integer, is not zero. -/
def isTrue : Cell → Bool
  | .null => false
  | .integer n => n ≠ 0
  | .real x => x.truncate ≠ 0
  | c => c.leadingNumber.integer ≠ 0

example : order (.integer 1) (.real (.ofInt 1)) = .eq := by decide +kernel
example : order (.real (.infinity false)) (.text "") = .lt := by decide +kernel
example : quantity (.text " 12 ") = .integer 12 := by decide +kernel
example : asNumber (.text "1e2") = .real (.ofInt 100) := by decide +kernel
example : asNumber (.text "1e2x") = .text "1e2x" := by decide +kernel
example : isTrue (.real (.ofRatio false 1 2)) = false := by decide +kernel

end Cell

end CatalogQuery
