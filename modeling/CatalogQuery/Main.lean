import CatalogQuery.CommandLine.Run
import CatalogQuery.CommandLine.Usage
import CatalogQuery.Http.Server
import CatalogQuery.Store.Snapshot
/-!
# The program

Brings the files that a command asks for, runs it, and prints what it printed. The database is a file
with a snapshot of its tables.
-/
namespace CatalogQuery.CommandLine

def systemFault : IO.Error → FileFault
  | .noFileOrDirectory _ _ _ => .missing
  | .permissionDenied _ _ _ => .denied
  | .inappropriateType _ code _ => if code = 20 then .notDirectory else .isDirectory
  | e => .other (toString e)

def readTextFile (path : String) : IO (Except FileFault String) := do
  try
    let bytes ← IO.FS.readBinFile path
    return match String.fromUTF8? bytes with
      | some s => .ok s
      | none => .error .notText
  catch e => return .error (systemFault e)

def learnText (w : Workspace) (path : String) : IO Workspace := do
  let contents ← readTextFile path
  return w.learn path (contents.map .text)

/-- Puts a database into the workspace; a file that holds no snapshot has no tables. -/
def learnDatabase (w : Workspace) (config : EngineConfig) : IO Workspace := do
  match DatabaseAddress.ofText? config.readOnly config.databaseUrl with
  | some { place := .file path, .. } =>
    let contents ← readTextFile path
    return w.learn path (contents.map fun s =>
      .database (((Json.readText Store.reader s).toOption).getD {}))
  | _ => return w

def learnConfigured (w : Workspace) (path : String) : IO Workspace := do
  match (EngineConfig.load path (w.read path)).toOption with
  | none => return w
  | some config => learnDatabase (← learnText w config.catalogPath) config

def gather : Command → IO Workspace
  | .checkCatalog path => learnText {} path
  | .serve config => do learnConfigured (← learnText {} config) config
  | .query config plan | .compile config plan => do
    let w ← learnText {} config
    let w ← match plan with
      | some path => learnText w path
      | none => pure w
    learnConfigured w config

partial def readAll (input : IO.FS.Stream) (soFar : ByteArray) : IO ByteArray := do
  let bytes ← input.read 65536
  if bytes.isEmpty then return soFar else readAll input (soFar ++ bytes)

def readInput : Command → IO (Except FileFault String)
  | .query _ none | .compile _ none => do
    let bytes ← readAll (← IO.getStdin) .empty
    return match String.fromUTF8? bytes with
      | some s => .ok s
      | none => .error .notText
  | _ => return .ok ""

/-- Runs a command; the time it reports is how long the same run takes. -/
def timedRun (w : Workspace) (input : Except FileFault String) (command : Command) : IO Outcome := do
  let start ← IO.monoMsNow
  let trial ← Http.ambientNow (fun _ _ _ => .ok []) 0
  let setting (elapsedMs : UInt64) : Setting :=
    ⟨w, input, trial.registeredAt, fun backend => { trial with backend, elapsedMs }⟩
  let _ ← IO.lazyPure fun _ => (run (setting 0) command).printed.length
  let stop ← IO.monoMsNow
  IO.lazyPure fun _ => run (setting (.ofNat (stop - start))) command

def Printed.print : Printed → IO Unit
  | .out s => IO.print s
  | .err s => IO.eprint s

def listen (w : Workspace) (engine : Engine) (config : EngineConfig) (least : Severity) :
    IO (Option CommandError) := do
  match w.connect config with
  | .error reason => return some ⟨.boot, reason⟩
  | .ok store =>
    try
      let ref ← IO.mkRef engine
      let server : Http.Server := ⟨ref, config, (store.fetch · config.queryTimeoutMs), least⟩
      let _ ← server.listen
      return none
    catch e => return some ⟨.boot, "HTTP server failed: " ++ toString e⟩

/-- Tells why a command ended, and gives the status for that. -/
def failed (e : CommandError) : IO UInt32 := do
  IO.eprintln e.display
  return CommandError.exitStatus.toUInt32

/-- Runs a command to its end, and gives the status with which the program ends. -/
def perform (command : Command) : IO UInt32 := do
  let w ← gather command
  let input ← readInput command
  let o ← timedRun w input command
  o.printed.forM Printed.print
  (← IO.getStdout).flush
  match o.ending with
  | .success => return 0
  | .failure e => failed e
  | .brokenOff => return brokenOffStatus.toUInt32
  | .listening engine config =>
    match ← listen w engine config o.least with
    | none => return 0
    | some e => failed e

end CatalogQuery.CommandLine

open CatalogQuery.CommandLine in
def main (args : List String) : IO UInt32 := do
  match readArguments args with
  | .error fault =>
    if fault.isQuestion then IO.print fault.message else IO.eprint fault.message
    return fault.exitStatus.toUInt32
  | .ok command => perform command
