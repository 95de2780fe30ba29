import CatalogQuery.Json.Printer
import CatalogQuery.Text.Ascii
/-!
# HTTP messages

A request as it comes in and the answer to it, as far as the service looks at them.
-/
namespace CatalogQuery.Http

structure Request where
  method : String
  /-- The path, and what follows a question mark or a number sign; a scheme and a host may stand
  before it. -/
  target : String
  headers : List (String × String) := []
  body : String := ""
  deriving DecidableEq, Repr, Inhabited

def isSchemeChar (c : Char) : Bool := c.isAlphanum || c == '+' || c == '-' || c == '.'

def endsHost (c : Char) : Bool := c == '/' || c == '?' || c == '#'

def afterHost? (target : List Char) : Option (List Char) :=
  match target.dropWhile isSchemeChar with
  | ':' :: '/' :: '/' :: rest => some (rest.dropWhile fun c => !endsHost c)
  | _ => none

/-- The path up to the query string or the fragment. -/
def pathOf (cs : List Char) : String :=
  String.ofList (cs.takeWhile fun c => c != '?' && c != '#')

/-- The path of a target. Behind a host it may be missing, and then is the root; a target that is
neither a path nor behind a host has none. -/
def Request.path (r : Request) : String :=
  match r.target.toList with
  | '/' :: rest => pathOf ('/' :: rest)
  | cs =>
    match (afterHost? cs).map pathOf with
    | none => ""
    | some path => if path = "" then "/" else path

/-- The first header of a name, in any case. -/
def Request.header? (r : Request) (name : String) : Option String :=
  (r.headers.find? fun h => Text.sameUpToCase h.1 name).map (·.2)

structure Response where
  status : Nat
  /-- A JSON body, if there is a body. -/
  body : Option Json := none
  /-- The type of the body; also where the body itself is left out. -/
  contentType : Option String := none
  /-- The origin that may read the answer. -/
  allowOrigin : Option String := none
  deriving Repr, BEq

def Response.text (r : Response) : String :=
  match r.body with
  | none => ""
  | some j => j.text

/-- The type of every body the service sends. -/
def jsonType : String := "application/json"

def Response.json (status : Nat) (body : Json) : Response :=
  { status, body := some body, contentType := some jsonType }

def Response.empty (status : Nat) : Response := { status }

end CatalogQuery.Http
