import CatalogQuery.Number.Binary64
/-!
# JSON values

A value keeps integers apart from floating-point numbers and the members of an object in a list.
`insertMember` keeps such a list sorted by key with one member for each key.
-/
namespace CatalogQuery

inductive Json
  | null
  | bool (b : Bool)
  | int (n : Int)
  | real (x : Binary64)
  | str (s : String)
  | arr (items : List Json)
  | obj (members : List (String × Json))
  deriving Repr, BEq, Inhabited

namespace Json

/-- Puts a member at its place in a list sorted by key; a member with the same key is replaced. -/
def insertMember {α : Type} (key : String) (value : α) : List (String × α) → List (String × α)
  | [] => [(key, value)]
  | (k, v) :: rest =>
    if key = k then (key, value) :: rest
    else if key < k then (key, value) :: (k, v) :: rest
    else (k, v) :: insertMember key value rest

/-- The members sorted by key; of those with equal keys the last stays. -/
def sortMembers {α : Type} (members : List (String × α)) : List (String × α) :=
  members.foldl (fun acc m => insertMember m.1 m.2 acc) []

/-- The number as a floating-point number, if it is finite; there is no other number in JSON. -/
def ofReal (x : Binary64) : Json := if x.isFinite then .real x else .null

def member? (key : String) : Json → Option Json
  | .obj members => members.lookup key
  | _ => none

theorem lookup_insertMember_self {α : Type} (key : String) (value : α)
    (members : List (String × α)) : (insertMember key value members).lookup key = some value := by
  induction members with
  | nil => simp [insertMember]
  | cons m rest ih =>
    obtain ⟨k, v⟩ := m
    by_cases h : key = k
    · simp [insertMember, h]
    · by_cases h' : key < k
      · simp [insertMember, h, h']
      · have hk : (key == k) = false := by simpa using h
        simp [insertMember, h, h', List.lookup_cons, hk, ih]

end Json

end CatalogQuery
