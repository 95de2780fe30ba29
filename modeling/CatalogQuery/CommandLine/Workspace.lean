import CatalogQuery.CommandLine.Database
import CatalogQuery.Config.Basic
import CatalogQuery.Store.Basic
/-!
# Workspaces

The files a command can see, and how a path leads to one of them. A directory is there when a file is
in it. A path is followed part by part: every part but the last has to name a directory, also before
two dots, which lead to the directory above. What lies outside the workspace is empty, except for what
has been learned about single paths.

The path of a database is put in order first: two dots take the part before them away, and only then is
the file looked for.
-/
namespace CatalogQuery.CommandLine

inductive File
  | text (s : String)
  | database (store : Store)
  deriving Repr

/-- Files by the parts of their paths under the current directory. Two dots at the beginning lead
out of it, and a stroke alone is the root of everything. -/
structure Workspace where
  files : List (List String × File) := []
  /-- What paths have brought that were followed elsewhere. -/
  learned : List (String × Except FileFault File) := []
  deriving Inhabited

/-- The longest name of a file, and the longest path, in bytes. -/
def nameLimit : Nat := 255
def pathLimit : Nat := 4095

def above (dir : List String) : List String :=
  if dir = ["/"] then dir
  else if dir.all (· == "..") then dir ++ [".."]
  else dir.dropLast

def pathNames (path : String) : List String := (path.splitOn "/").filter (· ≠ "")

def pathStart (path : String) : List String := if path.startsWith "/" then ["/"] else []

/-- One name further, without a look at what is there. -/
def forward (dir : List String) (name : String) : List String :=
  if name = "." then dir else if name = ".." then above dir else dir ++ [name]

def pathParts (path : String) : List String := (pathNames path).foldl forward (pathStart path)

namespace Workspace

def ofFiles (files : List (String × File)) : Workspace :=
  ⟨files.map fun f => (pathParts f.1, f.2), []⟩

def file? (w : Workspace) (parts : List String) : Option File := w.files.lookup parts

/-- A directory: one that holds a file, or one that the workspace is in. -/
def isDirectory (w : Workspace) (parts : List String) : Bool :=
  parts == ["/"] || parts.all (· == "..") ||
    w.files.any fun f => parts.isPrefixOf f.1 && parts.length < f.1.length

def isBelowFile (w : Workspace) (parts : List String) : Bool :=
  w.files.any fun f => f.1.isPrefixOf parts && f.1.length < parts.length

def follow (w : Workspace) : List String → List String → Except FileFault (List String)
  | here, [] => .ok here
  | here, name :: names =>
    if !w.isDirectory here then .error .notDirectory
    else if nameLimit < name.utf8ByteSize then .error .nameTooLong
    else
      let next := forward here name
      if w.isDirectory next || (w.file? next).isSome then follow w next names
      else .error .missing

def pathFault? (path : String) : Option FileFault :=
  if path.toList.contains '\x00' then some .nulByte
  else if path = "" then some .missing
  else if pathLimit < path.utf8ByteSize then some .nameTooLong
  else none

/-- The file at a path; a stroke at the end asks for a directory. -/
def find (w : Workspace) (path : String) : Except FileFault File :=
  match w.learned.lookup path, pathFault? path with
  | some known, _ => known
  | none, some fault => .error fault
  | none, none => do
    let names := pathNames path ++ if path.endsWith "/" then ["."] else []
    let here ← w.follow (pathStart path) names
    match w.file? here with
    | some f => .ok f
    | none => .error .isDirectory

def read (w : Workspace) (path : String) : Except FileFault String :=
  match w.find path with
  | .error f => .error f
  | .ok (.text s) => .ok s
  | .ok (.database _) => .error .notText

def put (w : Workspace) (parts : List String) (f : File) : Workspace :=
  { w with files := (parts, f) :: w.files.filter fun g => g.1 ≠ parts }

def write (w : Workspace) (path : String) (f : File) : Except FileFault Workspace :=
  match pathFault? path, (pathNames path).getLast? with
  | some fault, _ => .error fault
  | none, none => .error .isDirectory
  | none, some name => do
    let dir ← w.follow (pathStart path) ((pathNames path).dropLast ++ ["."])
    if name = "." ∨ name = ".." ∨ path.endsWith "/" then .error .isDirectory
    else if nameLimit < name.utf8ByteSize then .error .nameTooLong
    else if w.isDirectory (dir ++ [name]) then .error .isDirectory
    else .ok (w.put (dir ++ [name]) f)

def remove (w : Workspace) (path : String) : Workspace :=
  { w with files := w.files.filter fun g => g.1 ≠ pathParts path }

def learn (w : Workspace) (path : String) (found : Except FileFault File) : Workspace :=
  { w with learned := w.learned ++ [(path, found)] }

/-- Follows the names in the path of a database; no directory on it may be a file, even one that two
dots take away again. -/
def followInOrder? (w : Workspace) : List String → List String → Option (List String)
  | here, [] => some here
  | here, name :: names =>
    let next := forward here name
    if w.isBelowFile next ∨ nameLimit < name.utf8ByteSize then none
    else followInOrder? w next names

def databaseFile? (w : Workspace) (address : DatabaseAddress) : Option File :=
  match address.place with
  | .memory => some (.database {})
  | .file path =>
    match w.learned.lookup path with
    | some known => known.toOption
    | none => do
      let here ← w.followInOrder? (pathStart path) (pathNames path)
      match w.file? here with
      | some f => some f
      | none =>
        if address.creates ∧ !w.isDirectory here ∧ w.isDirectory here.dropLast then
          some (.database {})
        else none

end Workspace

/-- The store in a file. One that is no database cannot be read, unless it is empty. -/
def File.store : File → Store
  | .database s => s
  | .text s => { readable := s.isEmpty }

/-- The database of a configuration, with the connections and the access it asks for. -/
def Workspace.connect (w : Workspace) (config : EngineConfig) : Except String Store :=
  match DatabaseAddress.ofText? config.readOnly config.databaseUrl with
  | none => .error "the address of the database cannot be understood"
  | some address =>
    match w.databaseFile? address with
    | none => .error "unable to open database file"
    | some f =>
      .ok { f.store with
        connections := config.maxConnections.toNat
        held := 0
        readOnly := address.fixed }

end CatalogQuery.CommandLine
