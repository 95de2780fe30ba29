import CatalogQuery.Catalog.File
import CatalogQuery.Config.Basic
/-!
# Configuration files

A configuration as JSON. Everything but the database, the catalog and the secret may be left out.
-/
namespace CatalogQuery

open Json

namespace HttpConfig

def record : Record HttpConfig :=
  HttpConfig.mk <$> .withDefault "host" Reader.string ({} : HttpConfig).host
    <*> .withDefault "port" Reader.uint16 ({} : HttpConfig).port
    <*> .withDefault "cors_origins" (Reader.list Reader.string) []

def toJson (c : HttpConfig) : Json :=
  .obj
    [("host", .str c.host), ("port", .int c.port.toNat),
     ("cors_origins", .arr (c.corsOrigins.map .str))]

end HttpConfig

namespace EngineConfig

def defaults : EngineConfig := { databaseUrl := "", catalogPath := "", tokenSecret := "" }

def record : Record EngineConfig :=
  EngineConfig.mk <$> .required "database_url" Reader.string
    <*> .required "catalog_path" Reader.string
    <*> .withDefault "max_limit" Reader.uint32 defaults.maxLimit
    <*> .withDefault "default_limit" Reader.uint32 defaults.defaultLimit
    <*> .required "token_secret" Reader.string
    <*> .withDefault "token_ttl_secs" Reader.uint64 defaults.tokenTtlSecs
    <*> .withDefault "token_issuer" Reader.string defaults.tokenIssuer
    <*> .withDefault "token_audience" Reader.string defaults.tokenAudience
    <*> .withDefault "query_timeout_ms" Reader.uint64 defaults.queryTimeoutMs
    <*> .withDefault "max_connections" Reader.uint32 defaults.maxConnections
    <*> .withDefault "acquire_timeout_ms" Reader.uint64 defaults.acquireTimeoutMs
    <*> .withDefault "read_only" Reader.bool defaults.readOnly
    <*> .withDefault "log_level" Reader.string defaults.logLevel
    <*> .withDefault "http" HttpConfig.record.reader defaults.http

def toJson (c : EngineConfig) : Json :=
  .obj
    [("database_url", .str c.databaseUrl), ("catalog_path", .str c.catalogPath),
     ("max_limit", .int c.maxLimit.toNat), ("default_limit", .int c.defaultLimit.toNat),
     ("token_secret", .str c.tokenSecret), ("token_ttl_secs", .int c.tokenTtlSecs.toNat),
     ("token_issuer", .str c.tokenIssuer), ("token_audience", .str c.tokenAudience),
     ("query_timeout_ms", .int c.queryTimeoutMs.toNat),
     ("max_connections", .int c.maxConnections.toNat),
     ("acquire_timeout_ms", .int c.acquireTimeoutMs.toNat), ("read_only", .bool c.readOnly),
     ("log_level", .str c.logLevel), ("http", c.http.toJson)]

def load (path : String) (contents : Except FileFault String) : Except ConfigError EngineConfig :=
  match contents with
  | .error f => .error (.unreadable path f)
  | .ok text =>
    match readText record.reader text with
    | .error f => .error (.notJson f.message)
    | .ok c => do
      c.check
      .ok c

end EngineConfig

end CatalogQuery
