import CatalogQuery.Bytes.Basic
import CatalogQuery.Json.Basic
import CatalogQuery.Number.Literal
import CatalogQuery.Text.Ascii
/-!
# Reading JSON texts

Reading a text gives the tree of what stands there, with the places where reading fails kept in it:
a value that breaks off, a list or object that is not closed, a number too large for a
floating-point number, a text with half a surrogate pair. A tree is only judged when something is
read from it, from left to right, so of two faults the first in the text counts, and numbers, texts
and nesting inside a member that nobody asks for are free.

The marks of the format are ASCII, so a text is read byte by byte, each byte as the character of its
number; only the quoted texts are put together as UTF-8, and one that is none is free as well where
nobody asks for it.
-/
namespace CatalogQuery.Json

/-- Why a text or value cannot be read as what is asked for: it is no JSON, or it is of another
shape. -/
inductive Fault
  | malformed
  | mismatch
  deriving DecidableEq, Repr

inductive Tree
  | broken
  /-- A number or quoted text that has no value, and whose reading stops before its end. -/
  | stuck
  | null
  | bool (b : Bool)
  | num (value : Option Number.LiteralValue)
  | str (s : Option String)
  | arr (items : List Tree) (closed : Bool)
  | obj (members : List (Option String × Tree)) (closed : Bool)
  deriving Repr, Inhabited

def isSpace (c : Char) : Bool := c == ' ' || c == '\t' || c == '\n' || c == '\r'

def skipSpace (cs : List Char) : List Char := cs.dropWhile isSpace

/-- A part of a quoted text: a byte, or a sixteen-bit unit in hexadecimal. -/
inductive Piece
  | char (c : Char)
  | unit (n : Nat)
  deriving DecidableEq, Repr

/-- The character that a letter after a backslash stands for. -/
def unescapeLetter? (e : Char) : Option Char :=
  if e = '"' then some '"'
  else if e = '\\' then some '\\'
  else if e = '/' then some '/'
  else if e = 'b' then some '\x08'
  else if e = 'f' then some '\x0c'
  else if e = 'n' then some '\n'
  else if e = 'r' then some '\r'
  else if e = 't' then some '\t'
  else none

def hexUnit? (a b c d : Char) : Option Nat :=
  match Text.hexValue? a, Text.hexValue? b, Text.hexValue? c, Text.hexValue? d with
  | some a, some b, some c, some d => some (((a * 16 + b) * 16 + c) * 16 + d)
  | _, _, _, _ => none

def readPieces : List Char → Option (List Piece × List Char)
  | [] => none
  | '"' :: rest => some ([], rest)
  | '\\' :: 'u' :: a :: b :: c :: d :: rest =>
    match hexUnit? a b c d with
    | none => none
    | some n => (readPieces rest).map fun p => (.unit n :: p.1, p.2)
  | '\\' :: e :: rest =>
    match unescapeLetter? e with
    | none => none
    | some c => (readPieces rest).map fun p => (.char c :: p.1, p.2)
  | c :: rest =>
    if c < ' ' ∨ c = '\\' then none
    else (readPieces rest).map fun p => (.char c :: p.1, p.2)

def isHighSurrogate (n : Nat) : Bool := 0xD800 ≤ n && n < 0xDC00
def isLowSurrogate (n : Nat) : Bool := 0xDC00 ≤ n && n < 0xE000

/-- Where half a surrogate pair stops the reading of a quoted text. A first half takes the mark after
it away, which may be the closing quote. -/
inductive Halt
  | atEnd
  | inside
  deriving DecidableEq, Repr

def pointBytes (n : Nat) : List UInt8 := Bytes.ofString (String.singleton (Char.ofNat n))

/-- The bytes of the pieces; surrogates have to come in pairs, high before low. -/
def joinPieces : List Piece → Except Halt (List UInt8)
  | [] => .ok []
  | .char c :: rest => (joinPieces rest).map (UInt8.ofNat c.toNat :: ·)
  | .unit n :: .unit m :: rest =>
    if isHighSurrogate n then
      if isLowSurrogate m then
        (joinPieces rest).map (pointBytes (0x10000 + (n - 0xD800) * 0x400 + (m - 0xDC00)) ++ ·)
      else .error .inside
    else if isLowSurrogate n then .error .inside
    else (joinPieces (.unit m :: rest)).map (pointBytes n ++ ·)
  | .unit n :: rest =>
    if isHighSurrogate n then .error (if rest.isEmpty then .atEnd else .inside)
    else if isLowSurrogate n then .error .inside
    else (joinPieces rest).map (pointBytes n ++ ·)

def textTree (pieces : List Piece) : Tree :=
  match joinPieces pieces with
  | .ok bs => .str (Bytes.toString? bs)
  | .error .atEnd => .str none
  | .error .inside => .stuck

def keyOf? (pieces : List Piece) : Option String :=
  (joinPieces pieces).toOption.bind Bytes.toString?

def spanDigits (cs : List Char) : List Char × List Char :=
  (cs.takeWhile Number.isDigit, cs.dropWhile Number.isDigit)

/-- The digits of a whole part: one zero, or digits that begin with another. -/
def readWhole (cs : List Char) : Option (List Char × List Char) :=
  match spanDigits cs with
  | ([], _) => none
  | ('0' :: _ :: _, _) => none
  | p => some p

def readFraction : List Char → Option (Option (List Char) × List Char)
  | '.' :: rest =>
    match spanDigits rest with
    | ([], _) => none
    | (ds, rest) => some (some ds, rest)
  | rest => some (none, rest)

/-- The letter of an exponent, a sign perhaps, and at least one digit, if the letter is there. -/
def readExponent : List Char → Option (Option (Bool × List Char) × List Char)
  | [] => some (none, [])
  | c :: rest =>
    if c = 'e' ∨ c = 'E' then
      let (negative, rest) :=
        match rest with
        | '-' :: rest => (true, rest)
        | '+' :: rest => (false, rest)
        | rest => (false, rest)
      match spanDigits rest with
      | ([], _) => none
      | (ds, rest) => some (some (negative, ds), rest)
    else some (none, c :: rest)

def readNumber (negative : Bool) (cs : List Char) : Option (Number.Literal × List Char) :=
  match readWhole cs with
  | none => none
  | some (whole, rest) =>
    match readFraction rest with
    | none => none
    | some (fraction, rest) =>
      match readExponent rest with
      | none => none
      | some (exponent, rest) => some (⟨negative, whole, fraction, exponent⟩, rest)

def numberTree (negative : Bool) (cs : List Char) : Tree × Option (List Char) :=
  match readNumber negative cs with
  | none => (.broken, none)
  | some (l, rest) => (if l.stopsInside then .stuck else .num l.value?, some rest)

mutual

/-- The tree of a value and what follows it, or nothing where reading breaks off. The first argument
bounds the number of steps. -/
def readTree : Nat → List Char → Tree × Option (List Char)
  | 0, _ => (.broken, none)
  | steps + 1, cs =>
    match skipSpace cs with
    | 'n' :: 'u' :: 'l' :: 'l' :: rest => (.null, some rest)
    | 't' :: 'r' :: 'u' :: 'e' :: rest => (.bool true, some rest)
    | 'f' :: 'a' :: 'l' :: 's' :: 'e' :: rest => (.bool false, some rest)
    | '"' :: rest =>
      match readPieces rest with
      | none => (.broken, none)
      | some (pieces, rest) => (textTree pieces, some rest)
    | '[' :: rest =>
      match skipSpace rest with
      | ']' :: rest => (.arr [] true, some rest)
      | rest => let (items, rest) := readItems steps rest; (.arr items rest.isSome, rest)
    | '\x7b' :: rest =>
      match skipSpace rest with
      | '\x7d' :: rest => (.obj [] true, some rest)
      | rest => let (members, rest) := readMembers steps rest; (.obj members rest.isSome, rest)
    | '-' :: rest => numberTree true rest
    | rest => numberTree false rest

def readItems : Nat → List Char → List Tree × Option (List Char)
  | 0, _ => ([], none)
  | steps + 1, cs =>
    match readTree steps cs with
    | (t, none) => ([t], none)
    | (t, some rest) =>
      match skipSpace rest with
      | ',' :: rest => let (ts, rest) := readItems steps rest; (t :: ts, rest)
      | ']' :: rest => ([t], some rest)
      | _ => ([t], none)

/-- One member or more, up to the closing brace. -/
def readMembers : Nat → List Char → List (Option String × Tree) × Option (List Char)
  | 0, _ => ([], none)
  | steps + 1, cs =>
    match skipSpace cs with
    | '"' :: rest =>
      match readPieces rest with
      | none => ([], none)
      | some (pieces, rest) =>
        let k := keyOf? pieces
        match skipSpace rest with
        | ':' :: rest =>
          match readTree steps rest with
          | (t, none) => ([(k, t)], none)
          | (t, some rest) =>
            match skipSpace rest with
            | ',' :: rest => let (ms, rest) := readMembers steps rest; ((k, t) :: ms, rest)
            | '\x7d' :: rest => ([(k, t)], some rest)
            | _ => ([(k, t)], none)
        | _ => ([(k, .broken)], none)
    | _ => ([], none)

end

/-- The tree of the bytes of a text and what follows it. Every step but the last takes a byte, at
most two steps to the byte. -/
def Tree.ofBytes (bs : List UInt8) : Tree × Option (List Char) :=
  readTree (2 * bs.length + 2) (bs.map fun b => Char.ofNat b.toNat)

def Tree.ofText (s : String) : Tree × Option (List Char) := ofBytes (Bytes.ofString s)

mutual

/-- Nothing breaks off inside the tree. -/
def Tree.isWhole : Tree → Bool
  | .broken => false
  | .arr items closed => wholeItems items && closed
  | .obj members closed => wholeMembers members && closed
  | _ => true

def wholeItems : List Tree → Bool
  | [] => true
  | t :: ts => t.isWhole && wholeItems ts

def wholeMembers : List (Option String × Tree) → Bool
  | [] => true
  | (_, t) :: ms => t.isWhole && wholeMembers ms

end

/-- How deep lists and objects may be nested. -/
def depthLimit : Nat := 127

mutual

/-- The value of a tree. A list or object needs a level of depth. Of members with one key the last
counts, and members come sorted. -/
def Tree.value : Nat → Tree → Except Fault Json
  | _, .broken | _, .stuck => .error .malformed
  | _, .null => .ok .null
  | _, .bool b => .ok (.bool b)
  | _, .num none => .error .malformed
  | _, .num (some (.integer n)) => .ok (.int n)
  | _, .num (some (.real x)) => .ok (.real x)
  | _, .str none => .error .malformed
  | _, .str (some s) => .ok (.str s)
  | 0, .arr _ _ => .error .malformed
  | 0, .obj _ _ => .error .malformed
  | depth + 1, .arr items closed => do
    let vs ← valueItems depth items
    if closed then .ok (.arr vs) else .error .malformed
  | depth + 1, .obj members closed => do
    let ms ← valueMembers depth members
    if closed then .ok (.obj (sortMembers ms)) else .error .malformed

def valueItems : Nat → List Tree → Except Fault (List Json)
  | _, [] => .ok []
  | depth, t :: ts => do
    let v ← t.value depth
    let vs ← valueItems depth ts
    .ok (v :: vs)

def valueMembers : Nat → List (Option String × Tree) → Except Fault (List (String × Json))
  | _, [] => .ok []
  | _, (none, _) :: _ => .error .malformed
  | depth, (some k, t) :: ms => do
    let v ← t.value depth
    let vs ← valueMembers depth ms
    .ok ((k, v) :: vs)

end

mutual

def toTree : Json → Tree
  | .null => .null
  | .bool b => .bool b
  | .int n => .num (some (.integer n))
  | .real x => .num (some (.real x))
  | .str s => .str (some s)
  | .arr items => .arr (toTrees items) true
  | .obj members => .obj (toMembers members) true

def toTrees : List Json → List Tree
  | [] => []
  | v :: vs => v.toTree :: toTrees vs

def toMembers : List (String × Json) → List (Option String × Tree)
  | [] => []
  | (k, v) :: ms => (some k, v.toTree) :: toMembers ms

end

def depth : Json → Nat
  | .arr items => 1 + depthItems items
  | .obj members => 1 + depthMembers members
  | _ => 0
where
  depthItems : List Json → Nat
    | [] => 0
    | v :: vs => max v.depth (depthItems vs)
  depthMembers : List (String × Json) → Nat
    | [] => 0
    | (_, v) :: ms => max v.depth (depthMembers ms)

end CatalogQuery.Json
