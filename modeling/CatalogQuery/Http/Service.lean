import CatalogQuery.Engine.Serving
import CatalogQuery.Http.MediaType
import CatalogQuery.Http.Message
import CatalogQuery.Plan.Encoding
/-!
# The HTTP service

Four routes over one engine: plans and tokens are posted, health and counters are read. The status of
an answer follows from its result. Every answer, also to a path or method that is not served, says
which origin may read it.
-/
namespace CatalogQuery.Http

open Json

def version : String := "0.1.0"

inductive BodyFault
  | contentType
  | json (f : Fault)
  deriving DecidableEq, Repr

def BodyFault.message : BodyFault → String
  | .contentType => "Expected request with `Content-Type: application/json`"
  | .json .malformed => "Failed to parse the request body as JSON: " ++ Fault.malformed.message
  | .json .mismatch =>
    "Failed to deserialize the JSON body into the target type: " ++ Fault.mismatch.message

def readBody {α : Type} (reader : Reader α) (r : Request) : Except BodyFault α :=
  match r.header? "content-type" with
  | none => .error .contentType
  | some value =>
    if isJsonType value then
      match readLeading reader r.body with
      | .ok x => .ok x
      | .error f => .error (.json f)
    else .error .contentType

def tokenRecord : Record String := .required "queryToken" Reader.string

def ofResult (r : QueryResult) : Response := .json r.httpStatus r.toJson

def notAPlan (f : BodyFault) : QueryResult :=
  .error ⟨.unsupportedOperation, "Request body is not a query plan: " ++ f.message⟩ none

/-- The answer to a body without a token. -/
def notAToken : QueryResult :=
  .error ⟨.invalidToken, "Request body must carry a queryToken"⟩ none

def health (e : Engine) : Json :=
  .obj
    [("status", .str "ok"), ("version", .str version),
     ("catalog_generation", .int e.catalog.generation.toNat), ("live_queries", .int e.liveCount)]

inductive Route
  | health
  | metrics
  | query
  | page
  deriving DecidableEq, Repr

def Route.ofPath? (path : String) : Option Route :=
  if path = "/health" then some .health
  else if path = "/metrics" then some .metrics
  else if path = "/v1/query" then some .query
  else if path = "/v1/query/page" then some .page
  else none

/-- An answer, with the engine and the log after it. There is none if the request broke off: then the
connection is closed. -/
structure Handled where
  response : Option Response
  engine : Engine
  log : List LogEntry := []

def Handled.only (e : Engine) (response : Response) : Handled :=
  { response := some response, engine := e }

def Handled.ofServed (s : Served) : Handled := ⟨s.result.map ofResult, s.engine, s.log⟩

/-- A value that is read; a head request gets no body. -/
def readOnly (e : Engine) (method : String) (body : Json) : Handled :=
  if method = "GET" then .only e (.json 200 body)
  else if method = "HEAD" then .only e { Response.json 200 body with body := none }
  else .only e (.empty 405)

def handleRoute (e : Engine) (a : Ambient) (r : Request) : Route → Handled
  | .health => readOnly e r.method (health e)
  | .metrics => readOnly e r.method e.metrics.toJson
  | .query =>
    if r.method = "POST" then
      match readBody Plan.record.reader r with
      | .ok plan => .ofServed (e.runPlan a plan)
      | .error f => .only e (ofResult (notAPlan f))
    else .only e (.empty 405)
  | .page =>
    if r.method = "POST" then
      match readBody tokenRecord.reader r with
      | .ok token => .ofServed (e.fetchPage a token)
      | .error _ => .only e (ofResult notAToken)
    else .only e (.empty 405)

def isHeaderValue (s : String) : Bool := s.toList.all fun c => (' ' ≤ c && c != '\x7f') || c == '\t'

/-- The origin that may read the answer to a request: any, where none are configured, otherwise that
of the request if it is listed. -/
def allowOrigin (config : HttpConfig) (r : Request) : Option String :=
  if config.corsOrigins.isEmpty then some "*"
  else (r.header? "origin").filter fun o => isHeaderValue o && config.corsOrigins.contains o

/-- Answers a request. A question about what is allowed is answered before any route is looked for. -/
def handle (e : Engine) (config : HttpConfig) (a : Ambient) (r : Request) : Handled :=
  let handled :=
    if r.method = "OPTIONS" then Handled.only e (.empty 200)
    else
      match Route.ofPath? r.path with
      | none => Handled.only e (.empty 404)
      | some route => handleRoute e a r route
  { handled with
    response := handled.response.map fun response =>
      { response with allowOrigin := allowOrigin config r } }

end CatalogQuery.Http
