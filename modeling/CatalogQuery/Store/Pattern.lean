import CatalogQuery.Store.Cell
/-!
# Patterns

A pattern and what it is matched with are read as sequences of codes, one to the character. Small and
capital ASCII letters are the same in a pattern. Byte strings are read like texts, and what is no
character in them has a code all the same: a byte that continues nothing stands for itself, and a
sequence that stands for no character has the code of the replacement character, as have the two last
codes of the basic plane.
-/
namespace CatalogQuery

/-- Whether a test holds of the list or one of its ends. -/
def anySuffix {α : Type} (test : List α → Bool) : List α → Bool
  | [] => test []
  | c :: rest => test (c :: rest) || anySuffix test rest

namespace Pattern

/-- The code with an ASCII capital made small. -/
def fold (c : Nat) : Nat := if 0x41 ≤ c ∧ c ≤ 0x5A then c + 0x20 else c

/-- Whether a pattern matches: a percent sign any run, an underscore any code, and a code after a
backslash only itself. -/
def isMatch : List Nat → List Nat → Bool
  | [], cs => cs.isEmpty
  | 0x25 :: pattern, cs => anySuffix (isMatch pattern) cs
  | 0x5F :: pattern, cs =>
    match cs with
    | [] => false
    | _ :: rest => isMatch pattern rest
  | [0x5C], _ => false
  | 0x5C :: p :: pattern, cs =>
    match cs with
    | [] => false
    | c :: rest => fold p == fold c && isMatch pattern rest
  | p :: pattern, cs =>
    match cs with
    | [] => false
    | c :: rest => fold p == fold c && isMatch pattern rest

def replacement : Nat := 0xFFFD

def ofChar (c : Char) : Nat := if c.toNat = 0xFFFE ∨ c.toNat = 0xFFFF then replacement else c.toNat

/-- A byte that goes on with the sequence before it. -/
def isContinuation (b : Nat) : Bool := b / 64 == 2

/-- The bits that the first byte of a sequence brings. -/
def leadBits (b : Nat) : Nat :=
  if b < 0xE0 then b - 0xC0
  else if b < 0xF0 then b - 0xE0
  else if b < 0xF8 then b - 0xF0
  else if b < 0xFC then b - 0xF8
  else if b < 0xFE then b - 0xFC
  else 0

def ofBits (n : Nat) : Nat :=
  if n < 0x80 ∨ (0xD800 ≤ n ∧ n < 0xE000) ∨ n = 0xFFFE ∨ n = 0xFFFF then replacement else n

/-- The codes of bytes, after a sequence whose bits so far are given; thirty-two of them are kept. -/
def ofBytes (bits? : Option Nat) : List UInt8 → List Nat
  | [] => (bits?.map ofBits).toList
  | b :: rest =>
    let b := b.toNat
    match bits?, isContinuation b with
    | some bits, true => ofBytes (some ((bits * 64 + b % 64) % pow2 32)) rest
    | _, _ =>
      (bits?.map ofBits).toList ++
        if b < 0xC0 then b :: ofBytes none rest else ofBytes (some (leadBits b)) rest

/-- The codes before a zero, where patterns and what they are matched with end. -/
def upToZero (cs : List Nat) : List Nat := cs.takeWhile (· != 0)

end Pattern

namespace Cell

def codes : Cell → List Nat
  | .blob bytes => Pattern.ofBytes none bytes
  | c => c.chars.map Pattern.ofChar

/-- Whether a value matches a pattern; unknown where one of them is null. -/
def like? (value pattern : Cell) : Option Bool :=
  if value.isNull || pattern.isNull then none
  else some (Pattern.isMatch (Pattern.upToZero pattern.codes) (Pattern.upToZero value.codes))

def patternLimit : Nat := 50000

def exceedsPattern (c : Cell) : Bool := patternLimit < c.bytes.length

example : like? (.text "by 50% OFF") (.text "%50\\%% off") = some true := by decide +kernel
example : like? (.text "xAxb") (.text "%a\\_b%") = some false := by decide +kernel
example : like? (.blob [0xE2, 0x82]) (.text "\u0082") = some true := by decide +kernel
example : like? (.text "\uFFFF") (.text "\uFFFD") = some true := by decide +kernel

end Cell

end CatalogQuery
