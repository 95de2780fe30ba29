import CatalogQuery.Json.Basic
/-!
# Looking into values

Lenient access to the members of a value: what is missing or of another type reads as null, as an
empty text or list, or as a default.
-/
namespace CatalogQuery.Json

def asText? : Json → Option String
  | .str s => some s
  | _ => none

def asText (j : Json) : String := j.asText?.getD ""

def asItems : Json → List Json
  | .arr items => items
  | _ => []

def asMembers : Json → List (String × Json)
  | .obj members => members
  | _ => []

def asInt? : Json → Option Int
  | .int n => some n
  | _ => none

def asNat? : Json → Option Nat
  | .int n => if 0 ≤ n then some n.toNat else none
  | _ => none

def get (j : Json) (key : String) : Json := (j.member? key).getD .null

def item (j : Json) (index : Nat) : Json := j.asItems.getD index .null

def getText? (j : Json) (key : String) : Option String := (j.get key).asText?

def getText (j : Json) (key : String) : String := (j.get key).asText

def getItems (j : Json) (key : String) : List Json := (j.get key).asItems

def getInt (j : Json) (key : String) (default : Int) : Int := (j.get key).asInt?.getD default

def getNat (j : Json) (key : String) (default : Nat) : Nat := (j.get key).asNat?.getD default

def getFlag (j : Json) (key : String) : Bool :=
  match j.get key with
  | .bool b => b
  | _ => false

def ofOption {α : Type} (f : α → Json) : Option α → Json
  | none => .null
  | some x => f x

/-- The first object with the members of the second put in place of its own. -/
def overlay : Json → Json → Json
  | .obj base, .obj top => .obj (sortMembers (base ++ top))
  | base, _ => base

end CatalogQuery.Json
