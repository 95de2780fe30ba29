import CatalogQuery.Page.Cursor
/-!
# Claims

What a continuation token says: which query, which page of it and from where, and for how long. A
token names a query by its fingerprint only, so its holder cannot change what is run.
-/
namespace CatalogQuery

open Json

structure PageClaims where
  fingerprint : String
  pageSize : UInt32
  cursor : Cursor
  /-- The number of the page, from one. -/
  page : UInt32
  /-- The generation of the catalog the query belongs to. -/
  generation : UInt64
  /-- Tells the token from every other; it can be used once. -/
  nonce : String
  /-- In seconds from the first of January 1970. -/
  issuedAt : Int64
  expiresAt : Int64
  issuer : String
  audience : String
  deriving DecidableEq, Repr

namespace PageClaims

def record : Record PageClaims :=
  PageClaims.mk <$> .required "fp" Reader.string
    <*> .required "ps" Reader.uint32
    <*> .required "cursor" Cursor.reader
    <*> .required "pg" Reader.uint32
    <*> .required "gen" Reader.uint64
    <*> .required "jti" Reader.string
    <*> .required "iat" Reader.int64
    <*> .required "exp" Reader.int64
    <*> .required "iss" Reader.string
    <*> .required "aud" Reader.string

def toJson (c : PageClaims) : Json :=
  .obj
    [("fp", .str c.fingerprint), ("ps", .int c.pageSize.toNat), ("cursor", c.cursor.toJson),
     ("pg", .int c.page.toNat), ("gen", .int c.generation.toNat), ("jti", .str c.nonce),
     ("iat", .int c.issuedAt.toInt), ("exp", .int c.expiresAt.toInt), ("iss", .str c.issuer),
     ("aud", .str c.audience)]

end PageClaims

end CatalogQuery
