import CatalogQuery.Json.Basic
import CatalogQuery.Report.Code
/-!
# Counters

What an engine has done since it started. Counters only grow, modulo two to the power of 64.
-/
namespace CatalogQuery

structure Metrics where
  plansReceived : UInt64 := 0
  plansRejected : UInt64 := 0
  pagesRequested : UInt64 := 0
  tokensRejected : UInt64 := 0
  queriesSucceeded : UInt64 := 0
  executionTimeouts : UInt64 := 0
  executionFailures : UInt64 := 0
  rowsReturned : UInt64 := 0
  catalogReloads : UInt64 := 0
  deriving DecidableEq, Repr, Inhabited

namespace Metrics

def countPlan (m : Metrics) : Metrics := { m with plansReceived := m.plansReceived + 1 }

def countPage (m : Metrics) : Metrics := { m with pagesRequested := m.pagesRequested + 1 }

def countSuccess (m : Metrics) (rows : Nat) : Metrics :=
  { m with
    queriesSucceeded := m.queriesSucceeded + 1
    rowsReturned := m.rowsReturned + .ofNat rows }

/-- Counts a failure under its category; backend failures have two counters. -/
def countFailure (m : Metrics) (code : ErrorCode) : Metrics :=
  match code.category with
  | .validation => { m with plansRejected := m.plansRejected + 1 }
  | .pagination => { m with tokensRejected := m.tokensRejected + 1 }
  | .backend =>
    if code = .executionTimeout then { m with executionTimeouts := m.executionTimeouts + 1 }
    else { m with executionFailures := m.executionFailures + 1 }

def countReload (m : Metrics) : Metrics := { m with catalogReloads := m.catalogReloads + 1 }

def toJson (m : Metrics) : Json :=
  .obj
    [("plans_received", .int m.plansReceived.toNat), ("plans_rejected", .int m.plansRejected.toNat),
     ("pages_requested", .int m.pagesRequested.toNat),
     ("tokens_rejected", .int m.tokensRejected.toNat),
     ("queries_succeeded", .int m.queriesSucceeded.toNat),
     ("execution_timeouts", .int m.executionTimeouts.toNat),
     ("execution_failures", .int m.executionFailures.toNat),
     ("rows_returned", .int m.rowsReturned.toNat),
     ("catalog_reloads", .int m.catalogReloads.toNat)]

end Metrics

end CatalogQuery
