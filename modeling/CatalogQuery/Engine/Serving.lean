import CatalogQuery.Engine.Basic
import CatalogQuery.Engine.Page
import CatalogQuery.Report.Result
/-!
# Serving requests

A request passes through stages, and between two stages it touches the engine once. So requests that
are served at the same time are served by steps in some order, and a request that is served alone by
its steps one after the other. A step may break off: then nothing is answered or counted, and what the
request has done to the engine before stays done.

What a request meets on its way is collected in one structure: the readings of the clock, the ids it
is given, and the backend that runs its statement.
-/
namespace CatalogQuery

/-- What comes to a request from outside. -/
structure Ambient where
  backend : Backend
  /-- The id of a request that brings none. -/
  freshId : String
  /-- The nonce of a token made for it. -/
  nonce : String
  registeredAt : Time.Reading
  verifiedAt : Time.Reading
  lookedUpAt : Time.Reading
  consumedAt : Time.Reading
  mintedAt : Time.Reading
  elapsedMs : UInt64

structure PageWork where
  request : Request
  query : CompiledQuery
  pageSize : UInt32
  cursor : Cursor
  page : UInt32
  /-- The nonce of the token that was claimed for it. -/
  claimed : Option String

inductive Stage
  /-- A plan, with the catalog in use when it came in. -/
  | submitted (plan : Plan) (catalog : Catalog) (request : Request)
  | presented (token : String) (request : Request)
  | verified (claims : PageClaims) (request : Request)
  | ready (work : PageWork)
  | executed (work : PageWork) (outcome : Except PageError PageOutcome)
  /-- A result, with the nonce of the token that was claimed for it. -/
  | answered (result : QueryResult) (claimed : Option String) (request : Request)
  | done (result : QueryResult) (request : Request)
  | brokenOff (request : Request)

namespace Engine

def submit (e : Engine) (a : Ambient) (plan : Plan) : Engine × Stage :=
  ({ e with metrics := e.metrics.countPlan },
    .submitted plan e.catalog (.receive (plan.requestId.getD a.freshId)))

def present (e : Engine) (a : Ambient) (token : String) : Engine × Stage :=
  ({ e with metrics := e.metrics.countPage }, .presented token (.receive a.freshId))

def reject (e : Engine) (a : Ambient) (request : Request) (claimed : Option String) (f : Failure)
    (detail : Option String) : Engine × Stage :=
  ({ e with metrics := e.metrics.countFailure f.code },
    .answered (.error f (some request.id)) claimed (request.fail f detail a.elapsedMs))

def offsetWarning (query : CompiledQuery) (request : Request) : LogEntry :=
  ⟨.warn, "PAGINATION_OFFSET", [("entity", query.entity), ("request_id", request.id)]⟩

def adopt (e : Engine) (a : Ambient) (request : Request) (checked : CheckedPlan)
    (generation : UInt64) : Engine × Stage :=
  let (query, codec) := e.codec.register (checked.compile generation) a.registeredAt
  let request := (request.advance .validated).advance .compiled
  let request :=
    if query.operation = .list ∧ query.cursorMode = .offset then
      request.note (offsetWarning query request)
    else request
  ({ e with codec },
    .ready { request, query, pageSize := checked.limit, cursor := .start, page := 1,
             claimed := none })

/-- The token for the page after an outcome, if there is one. Its number and its expiry are calculated
first, and that may break off. -/
def nextToken? (e : Engine) (a : Ambient) (work : PageWork) (outcome : PageOutcome) :
    Option (Except TokenError (Option String)) :=
  match outcome.next with
  | none => some (.ok none)
  | some next => do
    let page ← nextPage? e.overflow work.page
    let token ← e.codec.mint? a.mintedAt a.nonce work.query.fingerprint work.pageSize next page
    some (token.map some)

def deliver (e : Engine) (a : Ambient) (work : PageWork) (outcome : PageOutcome)
    (token : Option String) : Engine × Stage :=
  let rows := outcome.records.length
  ({ e with metrics := e.metrics.countSuccess rows },
    .answered
      (.success (.ofOperation work.query.operation outcome.records)
        { executionTimeMs := a.elapsedMs, rowsReturned := rows, mode := outcome.mode,
          requestId := some work.request.id }
        { queryToken := token, hasMore := outcome.hasMore, currentPage := work.page })
      work.claimed
      (work.request.succeed work.query.entity rows outcome.mode.name a.elapsedMs))

/-- A page that could not be served gives its token back if the same request may succeed later. -/
def settle (e : Engine) (result : QueryResult) (claimed : Option String) : Engine :=
  match claimed, result.errorCode? with
  | some nonce, some code =>
    if code.isRecoverable then { e with codec := e.codec.release nonce } else e
  | _, _ => e

def step (e : Engine) (a : Ambient) : Stage → Engine × Stage
  | .submitted plan catalog request =>
    match plan.check catalog e.limits with
    | .error err => e.reject a request none err.toFailure none
    | .ok checked => e.adopt a request checked catalog.generation
  | .presented token request =>
    match e.codec.config.verify a.verifiedAt token with
    | .error err => e.reject a request none err.toFailure none
    | .ok claims => (e, .verified claims request)
  | .verified claims request =>
    let (page, registry) := e.codec.registry.redeem claims a.lookedUpAt a.consumedAt
    let e := { e with codec := { e.codec with registry } }
    match page with
    | .error err => e.reject a request none err.toFailure none
    | .ok p =>
      (e, .ready { request, query := p.query, pageSize := p.pageSize, cursor := p.cursor,
                   page := p.page, claimed := some p.nonce })
  | .ready work =>
    let work := { work with request := work.request.advance .executing }
    (e, .executed work (work.query.executePage a.backend work.pageSize work.cursor work.page))
  | .executed work outcome =>
    match outcome with
    | .error err => e.reject a work.request work.claimed err.toFailure err.detail?
    | .ok outcome =>
      match e.nextToken? a work outcome with
      | none => (e, .brokenOff work.request.leave)
      | some (.error err) => e.reject a work.request work.claimed err.toFailure none
      | some (.ok token) => e.deliver a work outcome token
  | .answered result claimed request => (e.settle result claimed, .done result request)
  | .done result request => (e, .done result request)
  | .brokenOff request => (e, .brokenOff request)

/-- Takes a request a number of steps further. -/
def steps (a : Ambient) : Nat → Engine × Stage → Engine × Stage
  | 0, s => s
  | n + 1, s => steps a n (s.1.step a s.2)

end Engine

namespace Stage

/-- The greatest number of steps before the request is done or has broken off. -/
def remaining : Stage → Nat
  | .submitted _ _ _ => 4
  | .presented _ _ => 5
  | .verified _ _ => 4
  | .ready _ => 3
  | .executed _ _ => 2
  | .answered _ _ _ => 1
  | .done _ _ | .brokenOff _ => 0

/-- The result of a request that has come to its end, if it did not break off, and the request as it
ended. -/
def outcome : (s : Stage) → s.remaining = 0 → Option QueryResult × Request
  | .submitted _ _ _, h => absurd h (by simp [remaining])
  | .presented _ _, h => absurd h (by simp [remaining])
  | .verified _ _, h => absurd h (by simp [remaining])
  | .ready _, h => absurd h (by simp [remaining])
  | .executed _ _, h => absurd h (by simp [remaining])
  | .answered _ _ _, h => absurd h (by simp [remaining])
  | .done result request, _ => (some result, request)
  | .brokenOff request, _ => (none, request)

end Stage

namespace Engine

@[simp] theorem remaining_reject (e : Engine) (a : Ambient) (r : Request) (c : Option String)
    (f : Failure) (d : Option String) : (e.reject a r c f d).2.remaining = 1 := rfl

@[simp] theorem remaining_adopt (e : Engine) (a : Ambient) (r : Request) (p : CheckedPlan)
    (g : UInt64) : (e.adopt a r p g).2.remaining = 3 := by
  simp only [adopt, Stage.remaining]

@[simp] theorem remaining_deliver (e : Engine) (a : Ambient) (w : PageWork) (o : PageOutcome)
    (t : Option String) : (e.deliver a w o t).2.remaining = 1 := rfl

/-- Every step brings a request closer to its end. -/
theorem remaining_step (e : Engine) (a : Ambient) (s : Stage) :
    (e.step a s).2.remaining ≤ s.remaining - 1 := by
  cases s with
  | submitted plan catalog request =>
    simp only [step]
    split
    · rw [remaining_reject]; simp [Stage.remaining]
    · rw [remaining_adopt]; simp [Stage.remaining]
  | presented token request =>
    simp only [step]
    split
    · rw [remaining_reject]; simp [Stage.remaining]
    · simp [Stage.remaining]
  | verified claims request =>
    simp only [step]
    split
    · rw [remaining_reject]; simp [Stage.remaining]
    · simp [Stage.remaining]
  | ready work => simp [step, Stage.remaining]
  | executed work outcome =>
    cases outcome with
    | error err => simp only [step]; rw [remaining_reject]; simp [Stage.remaining]
    | ok outcome =>
      simp only [step]
      split
      · simp [Stage.remaining]
      · rw [remaining_reject]; simp [Stage.remaining]
      · rw [remaining_deliver]; simp [Stage.remaining]
  | answered result claimed request => simp [step, Stage.remaining]
  | done result request => simp [step, Stage.remaining]
  | brokenOff request => simp [step, Stage.remaining]

theorem remaining_steps (a : Ambient) (n : Nat) (s : Engine × Stage) :
    (steps a n s).2.remaining ≤ s.2.remaining - n := by
  induction n generalizing s with
  | zero => exact Nat.le_refl _
  | succ n ih =>
    have h := ih (s.1.step a s.2)
    have h' := remaining_step s.1 a s.2
    simp only [steps]
    omega

theorem remaining_finish (a : Ambient) (s : Engine × Stage) :
    (steps a s.2.remaining s).2.remaining = 0 := by
  have h := remaining_steps a s.2.remaining s
  omega

end Engine

/-- What a request leaves that was served alone. -/
structure Served where
  engine : Engine
  /-- None if the request broke off. -/
  result : Option QueryResult
  log : List LogEntry

namespace Engine

/-- Takes a request through all its stages, with no other request in between. -/
def serve (a : Ambient) (s : Engine × Stage) : Served :=
  let last := steps a s.2.remaining s
  let outcome := last.2.outcome (remaining_finish a s)
  ⟨last.1, outcome.1, outcome.2.log⟩

def runPlan (e : Engine) (a : Ambient) (plan : Plan) : Served := serve a (e.submit a plan)

/-- Serves a token: the page it stands for. -/
def fetchPage (e : Engine) (a : Ambient) (token : String) : Served := serve a (e.present a token)

end Engine

end CatalogQuery
