import CatalogQuery.CommandLine.Error
import CatalogQuery.Json.Access
import CatalogQuery.Report.Failure
/-!
# Inspecting errors

Every kind of error as JSON, with its code, its message and what else is known of it.
-/
namespace CatalogQuery

open Json

def ErrorCode.inspect (c : ErrorCode) : Json :=
  .obj
    [("code", .str c.name), ("display", .str c.name), ("category", .str c.category.name),
     ("recoverable", .bool c.isRecoverable), ("http", .int c.httpStatus)]

def Failure.inspect (f : Failure) : Json :=
  .obj [("code", .str f.code.name), ("message", .str f.message), ("display", .str f.display)]

def PlanError.inspect (e : PlanError) : Json :=
  .obj
    [("error", .str e.code.name), ("message", .str e.message), ("field", ofOption .str e.field?),
     ("display", .str e.display)]

def CatalogError.inspect (e : CatalogError) : Json :=
  .obj
    [("error", .str e.code), ("message", .str e.message), ("severity", .str e.gravity.name),
     ("fatal", .bool (e.gravity == .fatal)), ("entity", ofOption .str e.entity?),
     ("field", ofOption .str e.field?), ("display", .str e.display)]

def TokenError.inspect (e : TokenError) : Json :=
  .obj [("error", .str e.code.name), ("message", .str e.message)]

def ConfigError.inspect (e : ConfigError) : Json :=
  .obj
    [("error", .str ConfigError.code), ("message", .str e.message), ("display", .str e.display)]

def ExecutionError.inspect (e : ExecutionError) : Json :=
  .obj
    [("code", .str e.code.name), ("message", .str e.message), ("detail", .str e.detail),
     ("display", .str e.display)]

def StartupError.inspect (e : StartupError) : Json :=
  .obj [("code", .str e.code), ("display", .str e.display)]

def CommandLine.CommandError.inspect (e : CommandLine.CommandError) : Json :=
  .obj
    [("code", .str e.kind.code), ("message", .str e.message), ("display", .str e.display)]

def PageError.inspect (e : PageError) : Json :=
  .obj
    [("pageDetail", ofOption .str e.detail?), ("pageDisplay", .str e.display),
     ("pageFailure", e.toFailure.inspect)]

end CatalogQuery
