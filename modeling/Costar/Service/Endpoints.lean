import Costar.Search
import Costar.Service.Framework
import Costar.Settings

/-!
# Endpoints of the service

The service finds connections, suggests names and tells whether it is healthy.  A failure that is
reported is replied with its name and its wording; any other breaks down the handling of the
request, and so does a reply that cannot be sent.

Main definition: `Service.serve`.
-/

namespace Costar.Service

/-- What there is while a request is handled: the graph store, once the service is connected to it,
the times that its answers take, and the milliseconds that pass. -/
structure Moment where
  database : Option Database
  timing : Timing
  elapsed : Binary64
  isFinite_elapsed : elapsed.isFinite = true

/-- What the handling of a request has come to: a reply, unless it broke down, and what the store has
seen of it. -/
structure Handling where
  reply : Option Reply
  events : List Event := []

/-- A response, with what the store has seen while it was made. -/
structure Served where
  response : Response
  events : List Event

/-- The status of a failure. -/
def statusOf : Failure → Nat
  | .invalidOperand .. | .unknownField .. | .emptyPath _ => 400
  | .traversalFailed _ | .lookupFailed .. => 502
  | _ => 500

section Framework

variable (F : Framework)

/-- Replies with some content, if it can be sent. -/
def replyWith (status : Nat) (content : Content) (events : List Event) : Handling :=
  ⟨(F.send content).map (⟨status, ·⟩), events⟩

/-- Tells a failure, if it is reported. -/
def failed (f : Failure) (events : List Event) : Handling :=
  match f.reportedAs? with
  | some name => replyWith F (statusOf f) (.failure name f.message) events
  | none => ⟨none, events⟩

/-- The plain values of records, if all have one. -/
def encodeRecords (records : List Record) : Option (List Value) :=
  records.mapM fun r => F.encode (.map r)

/-- Tells the steps of a connection that has been searched for. -/
def reportConnection (elapsed : Binary64) (run : Run Connection) : Handling :=
  let described : Except Failure (List Record) := do (← run.result).steps.mapM Step.describe
  match described with
  | .error f => failed F f run.events
  | .ok records =>
    match encodeRecords F records with
    | some triples => replyWith F 200 (.connection triples elapsed) run.events
    | none => ⟨none, run.events⟩

/-- The search that the service makes. -/
def search (settings : Settings) (moment : Moment) (db : Database) : Search :=
  ⟨db, settings.access, settings.concurrency, moment.timing⟩

/-- Finds a connection and tells its steps.  The filters are sorted by category first. -/
def findConnection (settings : Settings) (moment : Moment) (db : Database)
    (q : ConnectionQuery) : Handling :=
  match Selection.ofValue q.given with
  | .error f => failed F f []
  | .ok selection =>
    reportConnection F moment.elapsed
      ((search settings moment db).find (.int q.first) (.int q.second) (.sorted selection))

/-- Handles a request for a connection.  Its body is read first and checked last. -/
def handleConnection (settings : Settings) (moment : Moment) (request : HttpRequest) : Handling :=
  match F.readBody request.body, moment.database with
  | .error reply, _ => ⟨some reply, []⟩
  | .ok _, none => ⟨none, []⟩
  | .ok body, some db =>
    match F.readQuery body with
    | .error reply => ⟨some reply, []⟩
    | .ok q => findConnection F settings moment db q

/-- Handles a request for names. -/
def handleSuggestions (settings : Settings) (moment : Moment) (request : HttpRequest) : Handling :=
  match moment.database, F.readName request.query with
  | none, _ => ⟨none, []⟩
  | some _, .error reply => ⟨some reply, []⟩
  | some db, .ok name =>
    let run := settings.access.suggestNames db name settings.suggestionLimit
    match run.result with
    | .error f => failed F f run.events
    | .ok records =>
      match encodeRecords F records with
      | some people => replyWith F 200 (.suggestions people) run.events
      | none => ⟨none, run.events⟩

/-- Handles a request for the health of the service. -/
def handleHealth (moment : Moment) : Handling :=
  let reachable :=
    match moment.database with
    | some db => db.connectFault.isNone
    | none => false
  replyWith F 200 (.health reachable) []

/-- Handles a request. -/
def handle (settings : Settings) (moment : Moment) (request : HttpRequest) : Handling :=
  match F.route request.method request.path with
  | .error reply => ⟨some reply, []⟩
  | .ok .connection => handleConnection F settings moment request
  | .ok .suggestions => handleSuggestions F settings moment request
  | .ok .health => handleHealth F moment

/-- Serves a request. -/
def serveOne (settings : Settings) (moment : Moment) (request : HttpRequest) : Served :=
  let handling := handle F settings moment request
  ⟨F.respond settings.origins request handling.reply, handling.events⟩

/-- Serves one request after another, each at its moment.  Nothing is remembered between them. -/
def serve (settings : Settings) (requests : List (Moment × HttpRequest)) : List Served :=
  requests.map fun r => serveOne F settings r.1 r.2

end Framework

end Costar.Service
