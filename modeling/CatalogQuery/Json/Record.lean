import CatalogQuery.Json.Tree
/-!
# Reading records

A reader takes a value of some type from a tree, within a depth of nesting. A record names its
members once, in order; it is read from an object, where unknown members are passed over, or from a
list that has the members' values in that order.

`Record` is an applicative functor, so a record reads as a constructor applied to its members.
-/
namespace CatalogQuery.Json

/-- Reads a value from a tree, given how many levels of nesting are left. -/
abbrev Reader (α : Type) := Nat → Tree → Except Fault α

/-- The fault of a tree that is not of the shape asked for. A scalar is read before its shape is
judged; a list or object is judged by its bracket. -/
def unexpected : Tree → Fault
  | .broken | .stuck | .num none | .str none => .malformed
  | _ => .mismatch

namespace Reader

def string : Reader String
  | _, .str (some s) => .ok s
  | _, t => .error (unexpected t)

def bool : Reader Bool
  | _, .bool b => .ok b
  | _, t => .error (unexpected t)

/-- An integer of a range, written without fraction and exponent. -/
def integer (low high : Int) : Reader Int
  | _, .num (some (.integer n)) => if low ≤ n ∧ n ≤ high then .ok n else .error .mismatch
  | _, t => .error (unexpected t)

def int64 : Reader Int64 := fun depth t =>
  (integer minInt64 maxInt64 depth t).map Int64.ofInt

def uint64 : Reader UInt64 := fun depth t =>
  (integer 0 (pow2 64 - 1) depth t).map fun n => UInt64.ofNat n.toNat

def uint32 : Reader UInt32 := fun depth t =>
  (integer 0 (pow2 32 - 1) depth t).map fun n => UInt32.ofNat n.toNat

def uint16 : Reader UInt16 := fun depth t =>
  (integer 0 (pow2 16 - 1) depth t).map fun n => UInt16.ofNat n.toNat

/-- Any number, rounded where it is an integer. -/
def real : Reader Binary64
  | _, .num (some (.integer n)) => .ok (.ofInt n)
  | _, .num (some (.real x)) => .ok x
  | _, t => .error (unexpected t)

def value : Reader Json := Tree.value

def items {α : Type} (r : Reader α) (depth : Nat) : List Tree → Except Fault (List α)
  | [] => .ok []
  | t :: ts => do
    let x ← r depth t
    let xs ← items r depth ts
    .ok (x :: xs)

def list {α : Type} (r : Reader α) : Reader (List α)
  | 0, .arr _ _ => .error .malformed
  | depth + 1, .arr ts closed => do
    let xs ← items r depth ts
    if closed then .ok xs else .error .malformed
  | _, t => .error (unexpected t)

def nullable {α : Type} (r : Reader α) : Reader (Option α)
  | _, .null => .ok none
  | depth, t => (r depth t).map some

def isNull : Tree → Bool
  | .null => true
  | _ => false

def isVoid : Tree → Bool
  | .null | .obj [] true => true
  | _ => false

/-- One name of a vocabulary; it may also be written as the only key of an object, with a value that
says nothing. -/
def nameOver {α : Type} (isNothing : Tree → Bool) (ofName? : String → Option α) : Reader α
  | _, .str (some s) =>
    match ofName? s with
    | some x => .ok x
    | none => .error .mismatch
  | _ + 1, .obj [(some s, t)] true =>
    if isNothing t then
      match ofName? s with
      | some x => .ok x
      | none => .error .mismatch
    else .error .mismatch
  | _, t => .error (unexpected t)

/-- One name of a vocabulary, alone or over null. -/
def name {α : Type} (ofName? : String → Option α) : Reader α := nameOver isNull ofName?

end Reader

/-- The members of a record: the check of each, in order, and the value they make. -/
structure Record (α : Type) where
  known : List (String × Reader Unit)
  build : Nat → (String → Option Tree) → Except Fault α

namespace Record

instance : Functor Record where
  map f r := ⟨r.known, fun depth find => (r.build depth find).map f⟩

instance : Applicative Record where
  pure x := ⟨[], fun _ _ => .ok x⟩
  seq f r :=
    ⟨f.known ++ (r ()).known, fun depth find => do
      let g ← f.build depth find
      let x ← (r ()).build depth find
      .ok (g x)⟩

/-- A member that is read with `r`; `absent` stands for it when it is missing. -/
def member {α : Type} (key : String) (r : Reader α) (absent : Except Fault α) : Record α :=
  ⟨[(key, fun depth t => (r depth t).map fun _ => ())], fun depth find =>
    match find key with
    | some t => r depth t
    | none => absent⟩

def required {α : Type} (key : String) (r : Reader α) : Record α :=
  member key r (.error .mismatch)

/-- A member that may be missing but not null. -/
def withDefault {α : Type} (key : String) (r : Reader α) (default : α) : Record α :=
  member key r (.ok default)

def optional {α : Type} (key : String) (r : Reader α) : Record (Option α) :=
  member key r.nullable (.ok none)

/-- Checks the members of an object from left to right; a known key may occur once. -/
def scanMembers (known : List (String × Reader Unit)) (depth : Nat) (seen : List String) :
    List (Option String × Tree) → Except Fault Unit
  | [] => .ok ()
  | (none, _) :: _ => .error .malformed
  | (some key, t) :: rest =>
    match known.lookup key with
    | none => if t.isWhole then scanMembers known depth seen rest else .error .malformed
    | some check =>
      if key ∈ seen then .error .mismatch
      else do
        check depth t
        scanMembers known depth (key :: seen) rest

/-- Checks the items of a list against the members in order. -/
def scanItems (depth : Nat) :
    List (String × Reader Unit) → List Tree → Except Fault Unit
  | _, [] => .ok ()
  | [], _ :: _ => .error .malformed
  | (_, check) :: known, t :: ts => do
    check depth t
    scanItems depth known ts

def findMember (members : List (Option String × Tree)) (key : String) : Option Tree :=
  members.lookup (some key)

def findItem (known : List (String × Reader Unit)) (items : List Tree) (key : String) :
    Option Tree :=
  ((known.map (·.1)).zip items).lookup key

def reader {α : Type} (r : Record α) : Reader α
  | 0, .obj _ _ => .error .malformed
  | 0, .arr _ _ => .error .malformed
  | depth + 1, .obj members closed => do
    scanMembers r.known depth [] members
    if closed then r.build depth (findMember members) else .error .malformed
  | depth + 1, .arr items closed => do
    scanItems depth r.known items
    if closed then r.build depth (findItem r.known items) else .error .malformed
  | _, t => .error (unexpected t)

/-- Reads the record from an object, or from a list that has the value of every member. -/
def fullReader {α : Type} (r : Record α) : Reader α
  | depth, .arr items closed =>
    if items.length < r.known.length then .error .mismatch else r.reader depth (.arr items closed)
  | depth, t => r.reader depth t

end Record

def readBytes {α : Type} (r : Reader α) (bs : List UInt8) : Except Fault α :=
  let (t, rest) := Tree.ofBytes bs
  match r depthLimit t with
  | .error e => .error e
  | .ok x => if (rest.map skipSpace) = some [] then .ok x else .error .malformed

def readText {α : Type} (r : Reader α) (s : String) : Except Fault α :=
  readBytes r (Bytes.ofString s)

/-- Reads the value at the beginning of a text; what follows it is free. -/
def readLeading {α : Type} (r : Reader α) (s : String) : Except Fault α :=
  r depthLimit (Tree.ofText s).1

/-- Reads a value that is already known; its nesting is free. -/
def readValue {α : Type} (r : Reader α) (j : Json) : Except Fault α :=
  r (j.depth + depthLimit) j.toTree

end CatalogQuery.Json
