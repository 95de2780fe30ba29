import CatalogQuery.Engine.Basic
/-!
# Command errors

Why a command ends without success. Every such error ends the program with the same status.
-/
namespace CatalogQuery.CommandLine

inductive ErrorKind
  | config
  | io
  | catalog
  | boot
  | query
  deriving DecidableEq, Repr, Inhabited

def ErrorKind.code : ErrorKind → String
  | .config => "QP_CLI_CONFIG_ERROR"
  | .io => "QP_CLI_IO_ERROR"
  | .catalog => "QP_CLI_CATALOG_ERROR"
  | .boot => "QP_CLI_BOOT_FAILED"
  | .query => "QP_CLI_QUERY_FAILED"

structure CommandError where
  kind : ErrorKind
  message : String
  deriving DecidableEq, Repr, Inhabited

namespace CommandError

def display (e : CommandError) : String := e.kind.code ++ ": " ++ e.message

def ofConfig (e : ConfigError) : CommandError := ⟨.config, e.message⟩

def ofCatalog (e : CatalogError) : CommandError := ⟨.catalog, e.display⟩

def ofStartup : StartupError → CommandError
  | .config e => ofConfig e
  | .catalog e => ofCatalog e
  | .database reason => ⟨.boot, "Failed to open database: " ++ reason⟩

def exitStatus : Nat := 1

end CommandError

def brokenOffStatus : Nat := 101

end CatalogQuery.CommandLine
