import CatalogQuery.Catalog.File
import CatalogQuery.Engine.Basic
/-!
# Opening an engine

An engine is opened with a configuration, a catalog file and a database, in this order, and does not
start when one of them fails. The catalog file may be read again later; if that fails, nothing
changes.
-/
namespace CatalogQuery

namespace Engine

def firstGeneration : UInt64 := 1

/-- Opens an engine. `read` brings the contents of a file and `connect` tells whether there is a
database. -/
def open? (config : EngineConfig) (read : String → Except FileFault String)
    (connect : EngineConfig → Except String Unit) : Except StartupError (Engine × LogEntry) :=
  match config.check with
  | .error e => .error (.config e)
  | .ok () =>
    match Catalog.load config.catalogPath (read config.catalogPath) firstGeneration with
    | .error e => .error (.catalog e)
    | .ok catalog =>
      match connect config with
      | .error reason => .error (.database reason)
      | .ok () =>
        .ok ({ new catalog config with catalogPath := some config.catalogPath },
          ⟨.info, "ENGINE_STARTED",
            [("catalog", config.catalogPath),
              ("entities", Request.decimal catalog.entities.length)]⟩)

/-- An engine that was not opened with a catalog file has none to read again. -/
def noCatalogFile : CatalogError :=
  .loadFailed "<memory>" "engine was not opened from a catalog file"

def reloadFromDisk (e : Engine) (read : String → Except FileFault String) :
    Except CatalogError (Engine × LogEntry) :=
  match e.catalogPath with
  | none => .error noCatalogFile
  | some path => (Catalog.load path (read path) 0).map e.reload

end Engine

end CatalogQuery
