import CatalogQuery.Http.Service
import CatalogQuery.Text.Uuid
import Std.Http
import Std.Time.DateTime.Timestamp
/-!
# The HTTP server

The service on a socket: requests are read and answers written here, and what the answer is and what
becomes of the engine is decided by `handle` alone. Requests share one engine and change it one after
the other.
-/
namespace CatalogQuery.Http

def printEntries (least : Severity) (log : List LogEntry) : IO Unit := do
  (log.filter (LogEntry.isKept least)).forM fun e =>
    if e.isError then IO.eprint e.line else IO.print e.line
  (← IO.getStdout).flush

/-- The seconds since the first of January 1970. -/
def clockReading : IO Time.Reading := do
  let t ← Std.Time.Timestamp.now
  return .ofInt t.toSecondsSinceUnixEpoch.val

/-- An identifier that is not used anywhere else. -/
def freshUuid : IO String := do
  let bytes ← IO.getRandomBytes 16
  return Text.uuid (bytes.data.toList.map UInt8.toNat)

/-- What a request meets that comes in now, if serving it takes the given time. -/
def ambientNow (backend : Int → Backend) (elapsedMs : UInt64) : IO Ambient := do
  let freshId ← freshUuid
  let nonce ← freshUuid
  let now ← clockReading
  return { backend := backend now, freshId, nonce, registeredAt := now, verifiedAt := now,
           lookedUpAt := now, consumedAt := now, mintedAt := now, elapsedMs }

structure Server where
  engine : IO.Ref Engine
  config : EngineConfig
  /-- The backend at a time. -/
  backend : Int → Backend
  least : Severity

namespace Server

/-- Answers a request; its time is how long the same answer takes from the present engine. -/
def answer (s : Server) (r : Request) : IO (Option Response) := do
  let start ← IO.monoMsNow
  let trial ← ambientNow s.backend 0
  let engine ← s.engine.get
  let _ ← IO.lazyPure fun _ => (handle engine s.config.http trial r).response.map (·.text.length)
  let stop ← IO.monoMsNow
  let ambient := { trial with elapsedMs := .ofNat (stop - start) }
  let handled ← s.engine.modifyGet fun e =>
    let handled := handle e s.config.http ambient r
    (handled, handled.engine)
  printEntries s.least handled.log
  return handled.response

/-- The request that stands on the socket; a body that is no text reads as no JSON. -/
def receive (r : Std.Http.Request Std.Http.Body.Stream) : Std.Async.ContextAsync Request := do
  let bytes : ByteArray ← r.body.readAll
  return {
    method := toString r.line.method
    target := toString r.line.uri
    headers := r.line.headers.toList.map fun h => (toString h.1, h.2.value)
    body := (String.fromUTF8? bytes).getD "\uFFFD" }

def send (r : Response) : Std.Async.Async (Std.Http.Response Std.Http.Body.Full) := do
  let status := (Std.Http.Status.ofCode none r.status.toUInt16).getD .internalServerError
  let add (name : String) (value : Option String) (b : Std.Http.Response.Builder) :
      Std.Http.Response.Builder :=
    ((value.bind fun v => b.header? name v)).getD b
  let builder := add "access-control-allow-origin" r.allowOrigin (Std.Http.Response.withStatus status)
  let builder := add "content-type" r.contentType builder
  let body ← Std.Http.Body.Full.ofString r.text
  return builder.body body

instance : Std.Http.Server.Handler Server where
  ResponseBody := Std.Http.Body.Full
  onRequest s r := do
    let request ← receive r
    match ← s.answer request with
    | some response => send response
    | none => throw (IO.userError "the request broke off")

def address? (host : String) (port : UInt16) : Option Std.Net.SocketAddress :=
  match Std.Net.IPv4Addr.ofString host with
  | some addr => some (.v4 ⟨addr, port⟩)
  | none =>
    let inner := String.ofList ((host.toList.filter (· != '[')).filter (· != ']'))
    (Std.Net.IPv6Addr.ofString inner).map fun addr => .v6 ⟨addr, port⟩

/-- Listens until the process ends; false if the host is no address. -/
def listen (s : Server) : IO Bool := do
  match address? s.config.http.host s.config.http.port with
  | none => return false
  | some address =>
    let serving : Std.Async.Async Unit := do
      let server ← Std.Http.Server.serve address s
      printEntries s.least [⟨.info, "HTTP_LISTENING", [("addr", s.config.http.address)]⟩]
      server.waitShutdown
    serving.block
    return true

end Server

end CatalogQuery.Http
