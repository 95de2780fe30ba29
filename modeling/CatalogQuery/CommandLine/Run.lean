import CatalogQuery.CommandLine.Arguments
import CatalogQuery.CommandLine.Error
import CatalogQuery.CommandLine.Workspace
import CatalogQuery.Config.File
import CatalogQuery.Engine.Opening
import CatalogQuery.Engine.Serving
import CatalogQuery.Http.Address
import CatalogQuery.Plan.Encoding
import CatalogQuery.Text.Blank
/-!
# Running commands

What each command prints and how it ends. A command that answers one plan keeps the output for its
answer: it logs errors only. Compiling a plan and checking a catalog never look at the database.
-/
namespace CatalogQuery.CommandLine

open Json

structure Setting where
  workspace : Workspace
  /-- What stands on the input, if it is text. -/
  input : Except FileFault String
  /-- The time, in seconds since the first of January 1970. -/
  now : Int
  /-- What comes to a request from outside, given the backend. -/
  ambient : Backend → Ambient

inductive Printed
  | out (text : String)
  | err (text : String)
  deriving DecidableEq, Repr

inductive Ending
  | success
  | failure (e : CommandError)
  | brokenOff
  /-- The server listens, and the command does not end. -/
  | listening (engine : Engine) (config : EngineConfig)

structure Outcome where
  ending : Ending
  printed : List Printed := []
  least : Severity := .info

def printLog (least : Severity) (log : List LogEntry) : List Printed :=
  (log.filter (LogEntry.isKept least)).map fun e => if e.isError then .err e.line else .out e.line

def printJson (j : Json) : Printed := .out (j.text ++ "\n")

def Outcome.failed (e : CommandError) (least : Severity := .info) : Outcome :=
  { ending := .failure e, least }

def quietSeverity (config : EngineConfig) : Severity := config.logSeverity.max .error

def planText (s : Setting) : Option String → Except CommandError String
  | some path =>
    (s.workspace.read path).mapError fun f =>
      ⟨.io, "Failed to read plan " ++ path ++ ": " ++ f.message⟩
  | none => s.input.mapError fun f => ⟨.io, f.message⟩

def readPlan (s : Setting) (path : Option String) : Except CommandError Plan := do
  let text ← planText s path
  if Text.isAllBlank text then .error ⟨.io, "Empty input"⟩
  else (Plan.ofText text).mapError fun f => ⟨.io, "JSON error: " ++ f.message⟩

def loadConfig (s : Setting) (path : String) : Except CommandError EngineConfig :=
  (EngineConfig.load path (s.workspace.read path)).mapError .ofConfig

def loadCatalog (s : Setting) (path : String) : Except CommandError Catalog :=
  (Catalog.load path (s.workspace.read path) Engine.firstGeneration).mapError .ofCatalog

def openEngine (s : Setting) (config : EngineConfig) :
    Except StartupError (Engine × Store × LogEntry) := do
  let (engine, entry) ←
    Engine.open? config s.workspace.read fun c => (s.workspace.connect c).map fun _ => ()
  match s.workspace.connect config with
  | .error reason => .error (.database reason)
  | .ok store => .ok (engine, store, entry)

def serve (s : Setting) (path : String) : Outcome :=
  match loadConfig s path with
  | .error e => .failed e
  | .ok config =>
    let least := config.logSeverity
    match openEngine s config with
    | .error e =>
      { ending := .failure (.ofStartup e), least,
        printed := printLog least [⟨.fatal, "ENGINE_START_FAILED", [("code", e.code)]⟩] }
    | .ok (engine, _, entry) =>
      { ending :=
          if Http.isSocketHost config.http.host then .listening engine config
          else .failure ⟨.boot, "HTTP server failed: invalid socket address syntax"⟩,
        least, printed := printLog least [entry] }

def query (s : Setting) (path : String) (plan : Option String) : Outcome :=
  match loadConfig s path with
  | .error e => .failed e
  | .ok config =>
    let least := quietSeverity config
    match readPlan s plan with
    | .error e => .failed e least
    | .ok plan =>
      match openEngine s config with
      | .error e => .failed (.ofStartup e) least
      | .ok (engine, store, entry) =>
        let served := engine.runPlan (s.ambient (store.fetch s.now config.queryTimeoutMs)) plan
        { ending :=
            match served.result with
            | none => .brokenOff
            | some result =>
              match result.errorCode? with
              | some code => .failure ⟨.query, code.name⟩
              | none => .success,
          printed :=
            printLog least (entry :: served.log) ++
              (served.result.map fun result => printJson result.toJson).toList,
          least }

def compileReport (catalog : Catalog) (limits : LimitPolicy) (plan : Plan) :
    Except PlanError Json := do
  let checked ← plan.check catalog limits
  let q := checked.compile catalog.generation
  .ok <| .obj
    [("cursorMode", .str q.cursorMode.name), ("entity", .str q.entity),
     ("fingerprint", .str q.fingerprint), ("operation", .str q.operation.name),
     ("pageSize", .int checked.limit.toNat), ("params", .arr (q.base.values.map Param.bareJson)),
     ("sql", .str q.base.text)]

def compile (s : Setting) (path : String) (plan : Option String) : Outcome :=
  match loadConfig s path with
  | .error e => .failed e
  | .ok config =>
    let least := quietSeverity config
    match loadCatalog s config.catalogPath with
    | .error e => .failed e least
    | .ok catalog =>
      match readPlan s plan with
      | .error e => .failed e least
      | .ok plan =>
        match compileReport catalog config.limits plan with
        | .ok report => { ending := .success, printed := [printJson report], least }
        | .error e =>
          { ending := .failure ⟨.query, e.toFailure.display⟩,
            printed := [printJson (QueryResult.error e.toFailure plan.requestId).toJson], least }

def entitySummary (e : Entity) : Json :=
  .obj
    [("fields", .int e.fields.length), ("name", .str e.name), ("table", .str e.table),
     ("timeField", (e.timeField.map fun f => Json.str f.name).getD .null)]

def catalogSummary (c : Catalog) : Json :=
  .obj [("entities", .arr (c.entities.map entitySummary)), ("status", .str "ok")]

def checkCatalog (s : Setting) (path : String) : Outcome :=
  match loadCatalog s path with
  | .error e => .failed e
  | .ok catalog => { ending := .success, printed := [printJson (catalogSummary catalog)] }

def run (s : Setting) : Command → Outcome
  | .serve config => serve s config
  | .query config plan => query s config plan
  | .compile config plan => compile s config plan
  | .checkCatalog catalog => checkCatalog s catalog

end CatalogQuery.CommandLine
