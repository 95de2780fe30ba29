import CatalogQuery.Text.Ascii
/-!
# Media types

The header value that names the type of a body: a type and a subtype with a slash between them, then
parameters. A body is JSON if its type says so in full or by its suffix; the case of letters does not
count.
-/
namespace CatalogQuery.Http

def isTokenChar (c : Char) : Bool := c.isAlphanum || "!#$%&'*+-.^_`|~".toList.contains c

def isQuotedChar (c : Char) : Bool := ' ' ≤ c && c != '\x7f'

/-- After the closing quote of a value: spaces up to the next parameter. -/
def skipQuotedEnd : List Char → Option (List Char)
  | [] => some []
  | ';' :: rest => some rest
  | ' ' :: rest => skipQuotedEnd rest
  | _ => none

/-- A value in quotes, after the opening quote. -/
def skipQuoted : List Char → Option (List Char)
  | [] => none
  | '"' :: rest => skipQuotedEnd rest
  | c :: rest => if isQuotedChar c then skipQuoted rest else none

/-- A value without quotes, up to the next parameter. -/
def skipPlain : List Char → Option (List Char)
  | [] => some []
  | ';' :: rest => some rest
  | c :: rest => if isTokenChar c then skipPlain rest else none

/-- The value of a parameter. In quotes the first character counts whatever it is, and a plain value
that another parameter follows is not empty. -/
def skipValue : List Char → Option (List Char)
  | '"' :: c :: rest => if isQuotedChar c then skipQuoted rest else none
  | ['"'] => none
  | ';' :: _ => none
  | rest => skipPlain rest

/-- Whether a list of parameters is well formed. The first argument bounds the number of steps. -/
def areParameters : Nat → List Char → Bool
  | 0, _ => false
  | _ + 1, [] => true
  | steps + 1, ' ' :: rest => areParameters steps rest
  | steps + 1, cs =>
    match cs.takeWhile isTokenChar, cs.dropWhile isTokenChar with
    | _ :: _, '=' :: rest =>
      match skipValue rest with
      | some rest => areParameters steps rest
      | none => false
    | _, _ => false

/-- A subtype in two parts, at its last plus sign that is not its first character. -/
def splitSuffix (subtype : List Char) : List Char × Option (List Char) :=
  let suffix := (subtype.reverse.takeWhile (· != '+')).reverse
  let front := subtype.take (subtype.length - suffix.length - 1)
  if suffix.length < subtype.length ∧ !front.isEmpty then (front, some suffix)
  else (subtype, none)

def isJsonType (value : String) : Bool :=
  let cs := Text.foldCase value
  match cs.takeWhile isTokenChar, cs.dropWhile isTokenChar with
  | top, '/' :: rest =>
    let subtype := rest.takeWhile isTokenChar
    let (front, suffix) := splitSuffix subtype
    let wellFormed :=
      match rest.dropWhile isTokenChar with
      | [] => true
      | ';' :: parameters => !subtype.isEmpty && areParameters (parameters.length + 1) parameters
      | _ => false
    wellFormed && top == "application".toList &&
      (front == "json".toList || suffix == some "json".toList)
  | _, _ => false

example : isJsonType "Application/JSON; charset=utf-8" = true := by decide +kernel
example : isJsonType "application/vnd.api+json" = true := by decide +kernel
example : isJsonType "text/json" = false := by decide +kernel

end CatalogQuery.Http
