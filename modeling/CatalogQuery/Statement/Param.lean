import CatalogQuery.Plan.Scalar
import CatalogQuery.Json.Record
/-!
# Parameters

The values bound to the placeholders of a statement, their tagged JSON form, and the two ways in
which they arise: from the scalar of a filter, and from the value of an ordering key in the last row
of a page.
-/
namespace CatalogQuery

open Json

inductive Param
  | text (s : String)
  | integer (n : Int64)
  | real (x : Binary64)
  | bool (b : Bool)
  | null
  deriving DecidableEq, Repr, Inhabited

/-- The pattern that finds a text anywhere: the wildcards and the escape character itself are
escaped, and the result stands between two wildcards for any run. -/
def likePattern (s : String) : String :=
  let escaped := s.toList.flatMap fun c =>
    if c = '%' ∨ c = '_' ∨ c = '\\' then ['\\', c] else [c]
  String.ofList ('%' :: (escaped ++ ['%']))

/-- The members of a closed object whose keys are all texts. -/
def Json.Tree.members? : Tree → Option (List (String × Tree))
  | .obj members true => members.mapM fun m => m.1.map (·, m.2)
  | _ => none

def Json.once (key : String) (members : List (String × Tree)) : Except Fault (Option Tree) :=
  match members.filter (·.1 == key) with
  | [] => .ok none
  | [m] => .ok (some m.2)
  | _ => .error .mismatch

namespace Param

/-- A timestamp is bound as its text. -/
def ofScalar : Scalar → Param
  | .text s => .text s
  | .integer n => .integer n
  | .real x => .real x
  | .bool b => .bool b
  | .timestamp t => .text t.text

/-- The value of an ordering key as a parameter, if it is of the kind of its column. -/
def ofKeyValue? : ValueKind → Json → Option Param
  | _, .null => some .null
  | .string, .str s | .timestamp, .str s => some (.text s)
  | .number, .int n =>
    match Scalar.int64? n with
    | some i => some (.integer i)
    | none => some (.real (.ofInt n))
  | .number, .real x => some (.real x)
  | .boolean, .bool b => some (.bool b)
  | _, _ => none

def bareJson : Param → Json
  | .text s => .str s
  | .integer n => .int n.toInt
  | .real x => .ofReal x
  | .bool b => .bool b
  | .null => .null

def typeName : Param → String
  | .text _ => "text"
  | .integer _ => "integer"
  | .real _ => "real"
  | .bool _ => "bool"
  | .null => "null"

def toJson : Param → Json
  | .null => .obj [("type", .str "null")]
  | p => .obj [("type", .str p.typeName), ("value", p.bareJson)]

def ofTagged (type : String) (depth : Nat) (value : Option Tree) : Except Fault Param :=
  match type, value with
  | "text", some t => (Reader.string depth t).map .text
  | "integer", some t => (Reader.int64 depth t).map .integer
  | "real", some t => (Reader.real depth t).map .real
  | "bool", some t => (Reader.bool depth t).map .bool
  | "null", none => .ok .null
  | "null", some .null => .ok .null
  | _, _ => .error .mismatch

/-- Reads the tagged form: an object, or a list of type and value. In an object the type is a name,
alone or over a value that says nothing. -/
def reader (isNothing : Tree → Bool) : Reader Param := fun depth t => do
  let _ ← t.value depth
  match t with
  | .arr [.str (some type), value] true => ofTagged type (depth - 1) (some value)
  | t =>
    match t.members? with
    | none => .error .mismatch
    | some members => do
      let type ← once "type" members
      let value ← once "value" members
      match type with
      | some type => ofTagged (← Reader.nameOver isNothing some depth type) (depth - 1) value
      | none => .error .mismatch

end Param

end CatalogQuery
