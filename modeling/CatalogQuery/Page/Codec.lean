import CatalogQuery.Page.Registry
import CatalogQuery.Page.Token
/-!
# From queries to tokens and back

A token is made for a page of a query and later leads back to the page, as long as the query is live,
belongs to the catalog in use and accepts the cursor. To claim a token is to use it up; a claim can
be given back.

Verifying a token and using it up are two steps, and each looks at the clock for itself. What the
registry is given by the clock is on the calendar, so no difference of its times fails to fit, and the
calls are those of any build.
-/
namespace CatalogQuery

structure ResolvedPage where
  fingerprint : String
  pageSize : UInt32
  cursor : Cursor
  page : UInt32
  query : CompiledQuery
  nonce : String
  deriving DecidableEq, Repr

structure ClaimReadings where
  verified : Time.Reading
  lookedUp : Time.Reading
  consumed : Time.Reading
  deriving DecidableEq, Repr

/-- A clock that stands still. -/
def ClaimReadings.at (now : Time.Reading) : ClaimReadings := ⟨now, now, now⟩

namespace Registry

def resolve (r : Registry) (claims : PageClaims) (now : Int64) :
    Except TokenError ResolvedPage × Registry :=
  if claims.generation ≠ r.generation then (.error .staleQuery, r)
  else
    match r.lookup claims.fingerprint now with
    | (none, r) => (.error .staleQuery, r)
    | (some query, r) =>
      if query.accepts claims.cursor then
        (.ok
          { fingerprint := claims.fingerprint, pageSize := claims.pageSize,
            cursor := claims.cursor, page := claims.page, query, nonce := claims.nonce }, r)
      else (.error .staleQuery, r)

/-- The page that verified claims stand for, with their nonce used up. -/
def redeem (r : Registry) (claims : PageClaims) (lookedUp consumed : Int64) :
    Except TokenError ResolvedPage × Registry :=
  match r.resolve claims lookedUp with
  | (.error e, r) => (.error e, r)
  | (.ok page, r) =>
    match r.consume page.nonce claims.expiresAt consumed with
    | (true, r) => (.ok page, r)
    | (false, r) => (.error .invalidToken, r)

end Registry

structure Codec where
  config : TokenConfig
  registry : Registry
  deriving DecidableEq, Repr

namespace Codec

/-- No queries yet; queries live as long as tokens. -/
def new (config : TokenConfig) (generation : UInt64) : Codec :=
  ⟨config, { generation, ttl := config.ttl }⟩

def register (c : Codec) (q : CompiledQuery) (now : Time.Reading) : CompiledQuery × Codec :=
  let (q, registry) := c.registry.register q now
  (q, { c with registry })

/-- The claims of a new token, under the generation in use. -/
def mintClaims? (c : Codec) (now : Time.Reading) (nonce : String) (fingerprint : String)
    (pageSize : UInt32) (cursor : Cursor) (page : UInt32) : Option PageClaims :=
  c.config.newClaims? now nonce fingerprint pageSize cursor page c.registry.generation

/-- A new token, if making its claims does not break off. Signing is asked for as if it could fail. -/
def mint? (c : Codec) (now : Time.Reading) (nonce : String) (fingerprint : String)
    (pageSize : UInt32) (cursor : Cursor) (page : UInt32) : Option (Except TokenError String) :=
  (c.mintClaims? now nonce fingerprint pageSize cursor page).map fun claims =>
    .ok (c.config.sign claims)

/-- The page of a token, which stays usable. -/
def resolve (c : Codec) (token : String) (verified lookedUp : Time.Reading) :
    Except TokenError ResolvedPage × Codec :=
  match c.config.verify verified token with
  | .error e => (.error e, c)
  | .ok claims =>
    let (page, registry) := c.registry.resolve claims lookedUp
    (page, { c with registry })

/-- The page of a token, which is used up. -/
def claim (c : Codec) (token : String) (clock : ClaimReadings) :
    Except TokenError ResolvedPage × Codec :=
  match c.config.verify clock.verified token with
  | .error e => (.error e, c)
  | .ok claims =>
    let (page, registry) := c.registry.redeem claims clock.lookedUp clock.consumed
    (page, { c with registry })

def release (c : Codec) (nonce : String) : Codec :=
  { c with registry := c.registry.release nonce }

/-- Makes every token stale. -/
def invalidate (c : Codec) (generation : UInt64) : Codec :=
  { c with registry := c.registry.reset generation }

def liveCount (c : Codec) : Nat := c.registry.liveCount

end Codec

end CatalogQuery
