import CatalogQuery.Text.Percent
/-!
# Addresses of databases

An address is a scheme, which may be left out, a path, and parameters that say how the file is to be
opened. The path is percent-encoded. A path may itself be an address of the `file:` scheme, with its
own parameters; it is taken as one unless the outer parameters say something about the file.
-/
namespace CatalogQuery.CommandLine

open Text

inductive DatabasePlace
  | memory
  | file (path : String)
  deriving DecidableEq, Repr

structure DatabaseAddress where
  place : DatabasePlace
  /-- A file that is missing is made. -/
  creates : Bool := false
  /-- The database cannot be changed. -/
  fixed : Bool := false
  deriving DecidableEq, Repr

namespace DatabaseAddress

structure Options where
  readOnly : Bool
  memory : Bool := false
  creates : Bool := false
  fixed : Bool := false
  /-- Something is said about the file, not about the connection. -/
  aboutFile : Bool := false
  deriving Repr

def fileSystems : List String := ["unix", "unix-none", "unix-dotfile", "unix-excl"]

def Options.set? (o : Options) : String × String → Option Options
  | ("mode", "ro") | ("mode", "rw") => some o
  | ("mode", "rwc") => some { o with creates := true }
  | ("mode", "memory") => some { o with memory := true }
  | ("cache", "private") | ("cache", "shared") => some o
  | ("immutable", "true") | ("immutable", "1") =>
    some { o with fixed := true, aboutFile := true }
  | ("immutable", "false") | ("immutable", "0") => some { o with fixed := false, aboutFile := false }
  | ("vfs", name) => if name ∈ fileSystems then some { o with aboutFile := true } else none
  | _ => none

/-- One parameter of a path that is an address; those of other names say nothing. -/
def Options.setInner? (o : Options) : String × String → Option Options
  | ("mode", "ro") => some { o with fixed := true, creates := false }
  | ("mode", "rw") => if o.readOnly then none else some { o with creates := false }
  | ("mode", "rwc") => if o.creates ∧ !o.readOnly then some o else none
  | ("mode", "memory") => some { o with memory := true }
  | ("mode", _) => none
  | ("cache", value) => if value = "private" ∨ value = "shared" then some o else none
  | ("immutable", value) => some { o with fixed := o.fixed || value ∈ ["1", "true", "yes", "on"] }
  | ("vfs", name) => if name ∈ fileSystems then some o else none
  | _ => some o

/-- The database at a path: without a name there is none on disk. -/
def placed (o : Options) (path : String) : DatabaseAddress :=
  { place := if o.memory ∨ path = "" ∨ path = ":memory:" then .memory else .file path
    creates := o.creates && !o.readOnly, fixed := o.fixed || o.readOnly }

/-- The path and the parameters after the scheme of a file; a host is not allowed but the local one. -/
def innerParts? (rest : List Char) : Option (List Char × List Char) := do
  let rest := rest.takeWhile (· != '#')
  let rest ←
    match rest with
    | '/' :: '/' :: rest =>
      let host := rest.takeWhile (· != '/')
      if host = [] ∨ host = "localhost".toList then some (rest.drop host.length) else none
    | _ => some rest
  some (rest.takeWhile (· != '?'), (rest.dropWhile (· != '?')).drop 1)

def ofPath? (o : Options) (path : String) : Option DatabaseAddress :=
  let cs := path.toList
  if "file:".toList.isPrefixOf cs ∧ !o.aboutFile then do
    let (inner, parameters) ← innerParts? (cs.drop 5)
    let o ← (Percent.parameters parameters).foldlM Options.setInner? o
    some (placed o (← Percent.decodeText? (String.ofList inner)))
  else some (placed o path)

/-- Drops a text from the front as often as it is there. -/
def dropLeading (front : List Char) : Nat → List Char → List Char
  | 0, cs => cs
  | count + 1, cs =>
    if !front.isEmpty && front.isPrefixOf cs then dropLeading front count (cs.drop front.length)
    else cs

/-- The path of an address without its scheme, and its parameters. -/
def split (url : String) : String × List Char :=
  let cs := url.toList
  let cs := dropLeading "sqlite://".toList cs.length cs
  let cs := dropLeading "sqlite:".toList cs.length cs
  (String.ofList (cs.takeWhile (· != '?')), (cs.dropWhile (· != '?')).drop 1)

def ofText? (readOnly : Bool) (url : String) : Option DatabaseAddress := do
  let (path, parameters) := split url
  let path ← if path = ":memory:" then some path else Percent.decodeText? path
  let o ← (Percent.parameters parameters).foldlM Options.set? { readOnly }
  if path.toList.contains '\x00' then none else ofPath? o path

example : ofText? false "sqlite://a%20b.db?mode=rwc" =
    some { place := .file "a b.db", creates := true } := by decide +kernel
example : ofText? true "sqlite::memory:" = some { place := .memory, fixed := true } := by
  decide +kernel
example : ofText? false "file:///x.db#y" = some { place := .file "/x.db" } := by
  decide +kernel
example : ofText? false "sqlite://x.db?mode=none" = none := by decide +kernel

end DatabaseAddress

end CatalogQuery.CommandLine
