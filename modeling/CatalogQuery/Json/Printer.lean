import CatalogQuery.Json.Basic
import CatalogQuery.Number.Layout
import CatalogQuery.Text.Ascii
/-!
# JSON texts

A compact text without white space, and an indented one with a member or an item to the line. Text
is escaped only where the format demands it: quotes, backslashes and control characters below the
space.
-/
namespace CatalogQuery.Json

def escapeLetter? (c : Char) : Option Char :=
  if c = '"' then some '"'
  else if c = '\\' then some '\\'
  else if c = '\x08' then some 'b'
  else if c = '\t' then some 't'
  else if c = '\n' then some 'n'
  else if c = '\x0c' then some 'f'
  else if c = '\r' then some 'r'
  else none

def escapeChar (c : Char) : List Char :=
  match escapeLetter? c with
  | some e => ['\\', e]
  | none =>
    if c < ' ' then ['\\', 'u', '0', '0', Text.hexDigit (c.toNat / 16), Text.hexDigit (c.toNat % 16)]
    else [c]

def quoteList (cs : List Char) : List Char := '"' :: (cs.flatMap escapeChar ++ ['"'])

def quote (s : String) : List Char := quoteList s.toList

mutual

/-- The text without white space. A number that is not finite has no spelling and is null. -/
def compact : Json → List Char
  | .null => ['n', 'u', 'l', 'l']
  | .bool true => ['t', 'r', 'u', 'e']
  | .bool false => ['f', 'a', 'l', 's', 'e']
  | .int n => Number.intText n
  | .real x => if x.isFinite then Number.jsonText x else ['n', 'u', 'l', 'l']
  | .str s => quote s
  | .arr [] => ['[', ']']
  | .arr (v :: vs) => '[' :: (compact v ++ compactItems vs)
  | .obj [] => ['\x7b', '\x7d']
  | .obj ((k, v) :: ms) => '\x7b' :: (quote k ++ ':' :: (compact v ++ compactMembers ms))

/-- The items after the first, and the closing bracket. -/
def compactItems : List Json → List Char
  | [] => [']']
  | v :: vs => ',' :: (compact v ++ compactItems vs)

/-- The members after the first, and the closing brace. -/
def compactMembers : List (String × Json) → List Char
  | [] => ['\x7d']
  | (k, v) :: ms => ',' :: (quote k ++ ':' :: (compact v ++ compactMembers ms))

end

/-- A new line at a nesting level, two spaces to the level. -/
def newLine (level : Nat) : List Char := '\n' :: List.replicate (2 * level) ' '

mutual

/-- The indented text; an empty list or object stays on its line. -/
def indented (level : Nat) : Json → List Char
  | .null => compact .null
  | .bool b => compact (.bool b)
  | .int n => compact (.int n)
  | .real x => compact (.real x)
  | .str s => compact (.str s)
  | .arr [] => ['[', ']']
  | .arr (v :: vs) =>
    '[' :: (newLine (level + 1) ++ indented (level + 1) v ++ indentedItems level vs)
  | .obj [] => ['\x7b', '\x7d']
  | .obj ((k, v) :: ms) =>
    '\x7b' :: (newLine (level + 1) ++ quote k ++ ':' :: ' ' :: indented (level + 1) v ++
      indentedMembers level ms)

/-- The items after the first, and the closing bracket on a line of its own. -/
def indentedItems (level : Nat) : List Json → List Char
  | [] => newLine level ++ [']']
  | v :: vs => ',' :: (newLine (level + 1) ++ indented (level + 1) v ++ indentedItems level vs)

/-- The members after the first, and the closing brace on a line of its own. -/
def indentedMembers (level : Nat) : List (String × Json) → List Char
  | [] => newLine level ++ ['\x7d']
  | (k, v) :: ms =>
    ',' :: (newLine (level + 1) ++ quote k ++ ':' :: ' ' :: indented (level + 1) v ++
      indentedMembers level ms)

end

def text (j : Json) : String := String.ofList (compact j)

def prettyText (j : Json) : String := String.ofList (indented 0 j)

end CatalogQuery.Json
