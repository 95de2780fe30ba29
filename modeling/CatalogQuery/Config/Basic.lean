import CatalogQuery.Catalog.Error
import CatalogQuery.Log.Entry
import CatalogQuery.Number.Digits
import CatalogQuery.Page.Token
import CatalogQuery.Plan.Check
import CatalogQuery.Text.Blank
/-!
# Configuration

What an engine is set up with, the defaults, and the conditions on the values. A configuration that
does not meet them is never used.
-/
namespace CatalogQuery

structure HttpConfig where
  host : String := "127.0.0.1"
  port : UInt16 := 8080
  /-- The origins that may read answers; without any, all may. -/
  corsOrigins : List String := []
  deriving DecidableEq, Repr, Inhabited

def HttpConfig.address (c : HttpConfig) : String :=
  c.host ++ ":" ++ String.ofList (Number.digits c.port.toNat)

structure EngineConfig where
  databaseUrl : String
  catalogPath : String
  /-- The greatest limit of a plan. -/
  maxLimit : UInt32 := 1000
  /-- The limit of a plan that names none. -/
  defaultLimit : UInt32 := 100
  tokenSecret : String
  /-- The lifetime of tokens, and of queries that are not used. -/
  tokenTtlSecs : UInt64 := 900
  tokenIssuer : String := "querypilot"
  tokenAudience : String := "querypilot"
  queryTimeoutMs : UInt64 := 5000
  maxConnections : UInt32 := 8
  acquireTimeoutMs : UInt64 := 2000
  readOnly : Bool := true
  logLevel : String := "INFO"
  http : HttpConfig := {}
  deriving DecidableEq, Repr, Inhabited

inductive ConfigError
  | unreadable (path : String) (fault : FileFault)
  | notJson (reason : String)
  | notPositive (setting : String)
  | defaultAboveMax (default max : UInt32)
  | noSecret
  | unknownLevel (level : String)
  | stated (reason : String)
  deriving DecidableEq, Repr, Inhabited

namespace ConfigError

def code : String := "CONFIG_INVALID"

def message : ConfigError → String
  | .unreadable path fault => "Failed to read config " ++ path ++ ": " ++ fault.message
  | .notJson reason => "Invalid config JSON: " ++ reason
  | .notPositive setting => setting ++ " must be > 0"
  | .defaultAboveMax default max =>
    "default_limit (" ++ String.ofList (Number.digits default.toNat) ++
      ") must not exceed max_limit (" ++ String.ofList (Number.digits max.toNat) ++ ")"
  | .noSecret => "token_secret must not be empty"
  | .unknownLevel level => "Invalid log_level: '" ++ level ++ "'"
  | .stated reason => reason

def display (e : ConfigError) : String := "[FATAL] " ++ code ++ ": " ++ e.message

end ConfigError

namespace EngineConfig

def check (c : EngineConfig) : Except ConfigError Unit :=
  if c.maxLimit = 0 then .error (.notPositive "max_limit")
  else if c.defaultLimit = 0 then .error (.notPositive "default_limit")
  else if c.maxLimit < c.defaultLimit then .error (.defaultAboveMax c.defaultLimit c.maxLimit)
  else if Text.isAllBlank c.tokenSecret then .error .noSecret
  else if c.tokenTtlSecs = 0 then .error (.notPositive "token_ttl_secs")
  else if c.queryTimeoutMs = 0 then .error (.notPositive "query_timeout_ms")
  else if c.maxConnections = 0 then .error (.notPositive "max_connections")
  else if (Severity.ofName? c.logLevel).isNone then .error (.unknownLevel c.logLevel)
  else .ok ()

def limits (c : EngineConfig) : LimitPolicy := ⟨c.maxLimit, c.defaultLimit⟩

/-- The longest lifetime in seconds: its milliseconds fit sixty-four bits with a sign. -/
def maxTtlSecs : Nat := (pow2 63 - 1) / 1000

def tokenConfig (c : EngineConfig) : TokenConfig where
  secret := c.tokenSecret
  ttl := .ofNat (min c.tokenTtlSecs.toNat maxTtlSecs)
  issuer := c.tokenIssuer
  audience := c.tokenAudience

def logSeverity (c : EngineConfig) : Severity := (Severity.ofName? c.logLevel).getD .info

end EngineConfig

end CatalogQuery
