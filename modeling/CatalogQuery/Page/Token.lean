import CatalogQuery.Bytes.Base64Url
import CatalogQuery.Bytes.Sha256
import CatalogQuery.Json.Printer
import CatalogQuery.Page.Claims
import CatalogQuery.Page.Error
import CatalogQuery.Page.WebKey
import CatalogQuery.Time.Reading
/-!
# Tokens

A token is a JSON web token: a header and the claims, both in base64, and the authentication code of
the two under a secret. Verifying accepts a token whose header names the algorithm, whose code is the
one the secret gives, whose claims are complete and meant for this issuer and audience, and which has
not expired; a token that has expired is told apart from one that is not valid.
-/
namespace CatalogQuery

open Json

structure TokenConfig where
  secret : String := "CHANGE_THIS_SECRET_IN_PRODUCTION"
  /-- The lifetime of a token in seconds. -/
  ttl : Int64 := 900
  issuer : String := "querypilot"
  audience : String := "querypilot"
  deriving DecidableEq, Repr, Inhabited

namespace Token

def algorithm : String := "HS256"

def header : Json := .obj [("typ", .str "JWT"), ("alg", .str algorithm)]

def signature (secret : String) (message : List Char) : List Char :=
  Bytes.Base64Url.encode
    (Bytes.hmacSha256 (Bytes.ofString secret) (Bytes.ofString (String.ofList message)))

def ofTexts (secret : String) (header payload : String) : String :=
  let message :=
    Bytes.Base64Url.encode (Bytes.ofString header) ++
      '.' :: Bytes.Base64Url.encode (Bytes.ofString payload)
  String.ofList (message ++ '.' :: signature secret message)

/-- What stands before the last point and what stands after it. -/
def splitLast (cs : List Char) : Option (List Char × List Char) :=
  let last := (cs.reverse.takeWhile (· != '.')).reverse
  match (cs.reverse.dropWhile (· != '.')) with
  | [] => none
  | _ :: front => some (front.reverse, last)

def headerRecord : Record Unit :=
  (fun _ _ _ _ _ _ _ _ _ _ => ()) <$> .optional "typ" Reader.string
    <*> .required "alg" (Reader.name fun s => if s = algorithm then some () else none)
    <*> .optional "cty" Reader.string
    <*> .optional "jku" Reader.string
    <*> .optional "jwk" WebKey.reader
    <*> .optional "kid" Reader.string
    <*> .optional "x5u" Reader.string
    <*> .optional "x5c" (Reader.list Reader.string)
    <*> .optional "x5t" Reader.string
    <*> .optional "x5t#S256" Reader.string

def isHeader (bs : List UInt8) : Bool := (readBytes headerRecord.fullReader bs).isOk

/-- A subject is a scalar that reading gets over, if it is there. -/
def subjectFits : Option Tree → Bool
  | some (.arr _ _) | some (.obj _ _) | some .stuck => false
  | _ => true

/-- A time before which a token does not count is such a scalar, or empty, if it is there. -/
def notBeforeFits : Option Tree → Bool
  | some (.arr (_ :: _) _) | some (.obj (_ :: _) _) | some .stuck => false
  | _ => true

/-- The members that are not claims of a page but are known all the same. -/
def otherMembersFit (members : List (String × Tree)) : Bool :=
  match once "sub" members, once "nbf" members with
  | .ok sub, .ok nbf => subjectFits sub && notBeforeFits nbf
  | _, _ => false

/-- The claims in a payload, which has to be an object. -/
def claims? (payload : List UInt8) : Option PageClaims := do
  let claims ← (readBytes PageClaims.record.reader payload).toOption
  let members ← (Tree.ofBytes payload).1.members?
  if otherMembersFit members then some claims else none

/-- The parts of a token: header, payload and signature; the header may hold further points. -/
def parts? (token : String) : Option (List Char × List Char × List Char × List Char) := do
  let (message, signature) ← splitLast token.toList
  let (header, payload) ← splitLast message
  some (message, header, payload, signature)

/-- The claims of a token that the secret signed. -/
def open? (secret : String) (token : String) : Option PageClaims := do
  let (message, header, payload, sig) ← parts? token
  let header ← Bytes.Base64Url.decode? header
  if isHeader header && sig == signature secret message then
    claims? (← Bytes.Base64Url.decode? payload)
  else none

end Token

namespace TokenConfig

def sign (c : TokenConfig) (claims : PageClaims) : String :=
  Token.ofTexts c.secret Token.header.text claims.toJson.text

/-- The claims of a valid token at a time. -/
def verify (c : TokenConfig) (now : Int) (token : String) : Except TokenError PageClaims :=
  match Token.open? c.secret token with
  | none => .error .invalidToken
  | some claims =>
    if claims.expiresAt.toInt < 0 then .error .invalidToken
    else if claims.expiresAt.toInt < now then .error .expiredToken
    else if claims.issuer = c.issuer ∧ claims.audience = c.audience then .ok claims
    else .error .invalidToken

/-- New claims at a time. The expiry is a date: adding the lifetime breaks off, in every build, where it
leads out of the calendar. -/
def newClaims? (c : TokenConfig) (now : Time.Reading) (nonce : String) (fingerprint : String)
    (pageSize : UInt32) (cursor : Cursor) (page : UInt32) (generation : UInt64) :
    Option PageClaims :=
  if Time.Timestamp.IsOnCalendar (now + c.ttl.toInt) then
    some
      { fingerprint, pageSize, cursor, page, generation, nonce, issuedAt := now,
        expiresAt := .ofInt (now + c.ttl.toInt), issuer := c.issuer, audience := c.audience }
  else none

theorem newClaims?_eq_some_iff {c : TokenConfig} {now : Time.Reading} {nonce fingerprint : String}
    {pageSize page : UInt32} {cursor : Cursor} {generation : UInt64} {claims : PageClaims} :
    c.newClaims? now nonce fingerprint pageSize cursor page generation = some claims ↔
      Time.Timestamp.IsOnCalendar (now + c.ttl.toInt) ∧
        claims =
          { fingerprint, pageSize, cursor, page, generation, nonce, issuedAt := now,
            expiresAt := .ofInt (now + c.ttl.toInt), issuer := c.issuer, audience := c.audience } := by
  rw [newClaims?, Option.ite_none_right_eq_some, Option.some.injEq, eq_comm]

end TokenConfig

end CatalogQuery
