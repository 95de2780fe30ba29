import CatalogQuery.Bytes.Base64Url
import CatalogQuery.Bytes.Sha256
import CatalogQuery.Catalog.Vocabulary
import CatalogQuery.Statement.Param
/-!
# Fingerprints

A fingerprint stands for a statement text, its result columns and its parameters. It is the hash of
one byte string: the text up to a zero byte; for each column the length of its name, the name and
its kind up to a zero byte; for each parameter a letter for its type and its value.
-/
namespace CatalogQuery

structure OutputColumn where
  name : String
  kind : ValueKind
  deriving DecidableEq, Repr, Inhabited

namespace Fingerprint

/-- A length in eight bytes, and the bytes of the text. -/
def lengthPrefixed (s : String) : List UInt8 :=
  let bytes := Bytes.ofString s
  Bytes.bigEndian 8 bytes.length ++ bytes

def columnBytes (c : OutputColumn) : List UInt8 :=
  lengthPrefixed c.name ++ Bytes.ofString c.kind.name ++ [0]

def paramBytes : Param → List UInt8
  | .text s => 0x74 :: lengthPrefixed s
  | .integer n => 0x69 :: Bytes.bigEndian 8 n.toUInt64.toNat
  | .real x => 0x72 :: Bytes.bigEndian 8 x.bits.toNat
  | .bool b => [0x62, if b then 1 else 0]
  | .null => [0x6e]

/-- The byte string that is hashed. -/
def bytes (text : String) (params : List Param) (columns : List OutputColumn) : List UInt8 :=
  Bytes.ofString text ++ [0] ++ columns.flatMap columnBytes ++ params.flatMap paramBytes

def of (text : String) (params : List Param) (columns : List OutputColumn) : String :=
  Bytes.Base64Url.encodeText (Bytes.sha256 (bytes text params columns))

end Fingerprint

end CatalogQuery
