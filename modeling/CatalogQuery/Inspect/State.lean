import CatalogQuery.Config.File
import CatalogQuery.Engine.Request
import CatalogQuery.Json.Access
import CatalogQuery.Report.Result
/-!
# Inspecting settings, states and results

The values that follow from a configuration, the table of request states, and a result beside what
is asked of it.
-/
namespace CatalogQuery

open Json

def TokenConfig.inspect (c : TokenConfig) : Json :=
  .obj
    [("secret", .str c.secret), ("ttl", .int c.ttl.toInt), ("issuer", .str c.issuer),
     ("audience", .str c.audience)]

def EngineConfig.inspect (c : EngineConfig) : Json :=
  .obj
    [("config", c.toJson), ("addr", .str c.http.address),
     ("limits", .arr [.int c.limits.max.toNat, .int c.limits.default.toNat]),
     ("token", c.tokenConfig.inspect), ("queryTimeoutMs", .int c.queryTimeoutMs.toNat),
     ("acquireTimeoutMs", .int c.acquireTimeoutMs.toNat), ("severity", .str c.logSeverity.name)]

def RequestState.inspect (s : RequestState) : Json :=
  .obj
    [("state", .str s.name), ("terminal", .bool s.isTerminal),
     ("next", .arr ((all.filter s.canAdvance).map fun t => .str t.name))]

def QueryResult.inspect (r : QueryResult) : Json :=
  .obj
    [("text", .str r.text), ("success", .bool r.isSuccess),
     ("code", ofOption (fun c => .str c.name) r.errorCode?), ("http", .int r.httpStatus),
     ("empty", ofOption (fun d => .bool d.records.isEmpty) r.data?),
     ("records", ofOption (fun d => .int d.records.length) r.data?),
     ("rowsReturned", ofOption (fun m => .int m.rowsReturned) r.metadata?),
     ("page", ofOption (fun p => .int p.currentPage.toNat) r.pagination?)]

end CatalogQuery
