import CatalogQuery.Json.Record
/-!
# Keys in headers

A header may carry a JSON web key. The key plays no part in verifying, but it has to have the shape
of one: members that every key may have, and those of one type of key. All of it is read before its
shape is judged, so nothing in it is passed over.
-/
namespace CatalogQuery.WebKey

open Json

def algorithms : List String :=
  ["HS256", "HS384", "HS512", "ES256", "ES384", "RS256", "RS384", "RS512", "PS256", "PS384",
    "PS512", "EdDSA", "RSA1_5", "RSA-OAEP", "RSA-OAEP-256"]

def curves : List String := ["P-256", "P-384", "P-521", "Ed25519"]

def memberOf (names : List String) (s : String) : Option Unit :=
  if s ∈ names then some () else none

/-- The members that every key may have; a use and an operation may be any text. -/
def commonRecord : Record Unit :=
  (fun _ _ _ _ _ _ _ _ => ()) <$> .optional "use" Reader.string
    <*> .optional "key_ops" (Reader.list Reader.string)
    <*> .optional "alg" (Reader.nameOver Reader.isVoid (memberOf algorithms))
    <*> .optional "kid" Reader.string
    <*> .optional "x5u" Reader.string
    <*> .optional "x5c" (Reader.list Reader.string)
    <*> .optional "x5t" Reader.string
    <*> .optional "x5t#S256" Reader.string

def typeMember (type : String) : Record Unit :=
  .required "kty" (Reader.name (memberOf [type]))

def curveMember : Record Unit := .required "crv" (Reader.name (memberOf curves))

def textMember (key : String) : Record String := .required key Reader.string

def typeRecords : List (Record Unit) :=
  [(fun _ _ _ _ => ()) <$> typeMember "EC" <*> curveMember <*> textMember "x" <*> textMember "y",
   (fun _ _ _ => ()) <$> typeMember "RSA" <*> textMember "n" <*> textMember "e",
   (fun _ _ => ()) <$> typeMember "oct" <*> textMember "k",
   (fun _ _ _ => ()) <$> typeMember "OKP" <*> curveMember <*> textMember "x"]

def reader : Reader Unit := fun depth t => do
  let _ ← t.value depth
  match t with
  | .obj _ _ => do
    commonRecord.reader depth t
    if typeRecords.any fun r => (r.reader depth t).isOk then .ok () else .error .mismatch
  | t => .error (unexpected t)

end CatalogQuery.WebKey
