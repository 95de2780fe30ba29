import CatalogQuery.Number.Overflow
import CatalogQuery.Statement.Compiled
/-!
# Live queries

The queries that tokens can refer to, by fingerprint, and the nonces of tokens that were used. A
query lives as long after its last use as a token does after it was made. A used nonce is kept until
its token has expired. Times are seconds that the caller brings, in sixty-four bits with a sign, and so
are the differences of two of them.

The calls are given first as they are where differences wrap, and then for any build: one that checks
breaks off in the calls that take a difference which does not fit.
-/
namespace CatalogQuery

structure LiveQuery where
  query : CompiledQuery
  lastUsed : Int64
  deriving DecidableEq, Repr

structure Registry where
  /-- The generation of the catalog that the entries belong to. -/
  generation : UInt64
  ttl : Int64
  entries : List (String × LiveQuery) := []
  /-- Used nonces, each with the time at which its token expires. -/
  consumed : List (String × Int64) := []
  deriving DecidableEq, Repr

namespace Registry

/-- The entry has not been idle for too long. -/
def isFresh (r : Registry) (now : Int64) (e : LiveQuery) : Bool := now - e.lastUsed ≤ r.ttl

/-- Sets the last use of an entry. -/
def touch (r : Registry) (fingerprint : String) (now : Int64) : Registry :=
  { r with
    entries := r.entries.map fun e =>
      if e.1 = fingerprint then (e.1, { e.2 with lastUsed := now }) else e }

/-- Forgets nonces whose tokens have expired. -/
def dropExpired (r : Registry) (now : Int64) : Registry :=
  { r with consumed := r.consumed.filter fun c => decide (now ≤ c.2) }

/-- Forgets idle entries, and nonces whose tokens have expired. -/
def purge (r : Registry) (now : Int64) : Registry :=
  { r.dropExpired now with entries := r.entries.filter fun e => r.isFresh now e.2 }

/-- Stores a query and returns the one that is live under its fingerprint. A query of another
generation is returned but not stored. -/
def register (r : Registry) (q : CompiledQuery) (now : Int64) : CompiledQuery × Registry :=
  let r := r.purge now
  if q.generation ≠ r.generation then (q, r)
  else
    match r.entries.lookup q.fingerprint with
    | some e => (e.query, r.touch q.fingerprint now)
    | none => (q, { r with entries := r.entries ++ [(q.fingerprint, ⟨q, now⟩)] })

/-- The live query under a fingerprint. An entry that was idle for too long is forgotten. -/
def lookup (r : Registry) (fingerprint : String) (now : Int64) : Option CompiledQuery × Registry :=
  match r.entries.lookup fingerprint with
  | none => (none, r)
  | some e =>
    if r.isFresh now e then (some e.query, r.touch fingerprint now)
    else (none, { r with entries := r.entries.filter fun e => e.1 ≠ fingerprint })

/-- Marks a nonce as used; false if it already was. -/
def consume (r : Registry) (nonce : String) (expires now : Int64) : Bool × Registry :=
  let r := r.dropExpired now
  if (r.consumed.lookup nonce).isSome then (false, r)
  else (true, { r with consumed := r.consumed ++ [(nonce, expires)] })

def release (r : Registry) (nonce : String) : Registry :=
  { r with consumed := r.consumed.filter fun c => c.1 ≠ nonce }

/-- Forgets every entry and adopts a generation. Used nonces stay. -/
def reset (r : Registry) (generation : UInt64) : Registry := { r with generation, entries := [] }

def liveCount (r : Registry) : Nat := r.entries.length

def purge? (o : Overflow) (r : Registry) (now : Int64) : Option Registry :=
  o.result? (r.entries.all fun e => Overflow.subFits now e.2.lastUsed) (r.purge now)

def register? (o : Overflow) (r : Registry) (q : CompiledQuery) (now : Int64) :
    Option (CompiledQuery × Registry) :=
  o.result? (r.entries.all fun e => Overflow.subFits now e.2.lastUsed) (r.register q now)

def lookup? (o : Overflow) (r : Registry) (fingerprint : String) (now : Int64) :
    Option (Option CompiledQuery × Registry) :=
  o.result? ((r.entries.lookup fingerprint).all fun e => Overflow.subFits now e.lastUsed)
    (r.lookup fingerprint now)

@[simp] theorem purge_generation (r : Registry) (now : Int64) :
    (r.purge now).generation = r.generation := rfl

theorem register_generation (r : Registry) (q : CompiledQuery) (now : Int64) :
    (r.register q now).2.generation = r.generation := by
  unfold register
  simp only
  split
  · rfl
  · split <;> rfl

theorem lookup_generation (r : Registry) (fp : String) (now : Int64) :
    (r.lookup fp now).2.generation = r.generation := by
  unfold lookup
  split
  · rfl
  · split <;> rfl

end Registry

end CatalogQuery
