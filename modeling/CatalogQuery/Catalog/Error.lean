import CatalogQuery.Catalog.Definition
/-!
# Catalog errors

A plan may name what the catalog does not declare, which rejects the plan, and a catalog may fail to
load, which is fatal.
-/
namespace CatalogQuery

inductive CatalogError
  | unknownEntity (entity : String)
  | unknownField (entity field : String)
  | loadFailed (source reason : String)
  deriving DecidableEq, Repr

/-- How serious an error is: a request is rejected, or nothing can be served. -/
inductive Gravity
  | reject
  | fatal
  deriving DecidableEq, Repr

def Gravity.name : Gravity → String
  | .reject => "REJECT"
  | .fatal => "FATAL"

inductive FileFault
  | missing
  | isDirectory
  | notDirectory
  | notText
  | denied
  | nameTooLong
  | nulByte
  | other (reason : String)
  deriving DecidableEq, Repr

def FileFault.message : FileFault → String
  | .missing => "No such file or directory (os error 2)"
  | .isDirectory => "Is a directory (os error 21)"
  | .notDirectory => "Not a directory (os error 20)"
  | .notText => "stream did not contain valid UTF-8"
  | .denied => "Permission denied (os error 13)"
  | .nameTooLong => "File name too long (os error 36)"
  | .nulByte => "file name contained an unexpected NUL byte"
  | .other reason => reason

namespace CatalogError

def inMemory : String := "<in-memory>"

def ofStructure (source : String) (f : StructureFault) : CatalogError :=
  .loadFailed source f.message

def code : CatalogError → String
  | .unknownEntity _ => "UNKNOWN_ENTITY"
  | .unknownField _ _ => "UNKNOWN_FIELD"
  | .loadFailed _ _ => "CATALOG_LOAD_FAILED"

def gravity : CatalogError → Gravity
  | .loadFailed _ _ => .fatal
  | _ => .reject

def message : CatalogError → String
  | .unknownEntity e => "Entity '" ++ e ++ "' is not declared in the catalog"
  | .unknownField e f => "Field '" ++ f ++ "' is not declared on entity '" ++ e ++ "'"
  | .loadFailed s r => "Catalog '" ++ s ++ "' rejected: " ++ r

def entity? : CatalogError → Option String
  | .unknownEntity e | .unknownField e _ => some e
  | .loadFailed _ _ => none

def field? : CatalogError → Option String
  | .unknownField _ f => some f
  | _ => none

def display (e : CatalogError) : String :=
  "[" ++ e.gravity.name ++ "] " ++ e.code ++ ": " ++ e.message

end CatalogError

end CatalogQuery
