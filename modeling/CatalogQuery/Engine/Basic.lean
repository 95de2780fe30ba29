import CatalogQuery.Config.Basic
import CatalogQuery.Engine.Request
import CatalogQuery.Page.Codec
import CatalogQuery.Report.Metrics
/-!
# Engines

An engine holds the catalog in use, the live queries, the counters and the limits for plans. A new
catalog takes the next generation, and with it every query and token of the old one goes. It also knows
how the program was built, as far as that shows in what it does.
-/
namespace CatalogQuery

structure Engine where
  catalog : Catalog
  codec : Codec
  metrics : Metrics
  limits : LimitPolicy
  /-- The file the catalog was read from. -/
  catalogPath : Option String
  overflow : Overflow := .stops
  deriving DecidableEq, Repr

/-- Why an engine does not start. -/
inductive StartupError
  | config (e : ConfigError)
  | catalog (e : CatalogError)
  | database (reason : String)
  deriving DecidableEq, Repr

namespace StartupError

def code : StartupError → String
  | .config _ => ConfigError.code
  | .catalog e => e.code
  | .database _ => "DATABASE_UNAVAILABLE"

def display : StartupError → String
  | .config e => e.display
  | .catalog e => e.display
  | .database reason => "[FATAL] DATABASE_UNAVAILABLE: " ++ reason

end StartupError

namespace Engine

def new (catalog : Catalog) (config : EngineConfig) (overflow : Overflow := .stops) : Engine where
  catalog := catalog
  codec := .new config.tokenConfig catalog.generation
  metrics := {}
  limits := config.limits
  catalogPath := none
  overflow := overflow

def liveCount (e : Engine) : Nat := e.codec.liveCount

/-- Puts a catalog in use under the next generation. The count wraps in both builds here: one that
stops at an overflow would break off only after 2^64 - 1 reloads of one engine. -/
def reload (e : Engine) (catalog : Catalog) : Engine × LogEntry :=
  let generation := e.catalog.generation + 1
  ({ e with
      catalog := catalog.withGeneration generation
      codec := e.codec.invalidate generation
      metrics := e.metrics.countReload },
    ⟨.info, "CATALOG_RELOADED",
      [("entities", Request.decimal catalog.entities.length),
        ("generation", Request.decimal generation.toNat)]⟩)

@[simp] theorem reload_generation (e : Engine) (c : Catalog) :
    (e.reload c).1.catalog.generation = e.catalog.generation + 1 := rfl

theorem reload_registry_generation (e : Engine) (c : Catalog) :
    (e.reload c).1.codec.registry.generation = e.catalog.generation + 1 := rfl

end Engine

end CatalogQuery
