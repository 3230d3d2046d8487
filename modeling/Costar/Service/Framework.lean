import Costar.Service.Content

/-!
# The web framework

The service stands on a web framework that is not part of it.  The framework takes requests, finds
the endpoint of each, reads and checks what it says, makes values plain, and sends what the endpoint
replies.  What the service relies on is stated as laws of the framework.

Main definitions: `Framework`, `Framework.Reads` and `Framework.Lawful`.
-/

namespace Costar.Service

/-! ## Requests -/

/-- What the service offers. -/
inductive Endpoint where
  | connection
  | suggestions
  | health
deriving DecidableEq, Repr

namespace Endpoint

/-- All endpoints. -/
def all : List Endpoint :=
  [.connection, .suggestions, .health]

/-- The path of an endpoint. -/
def path : Endpoint → String
  | .connection => "/find_path"
  | .suggestions => "/suggested_names"
  | .health => "/health"

/-- The method of an endpoint. -/
def method : Endpoint → String
  | .connection => "POST"
  | .suggestions => "GET"
  | .health => "GET"

end Endpoint

/-- The body of a request: none, JSON that a value is read from, or text that has still to be read. -/
inductive Body where
  | none
  | data (v : Value)
  | text (s : String)
deriving Repr

/-- A request to the service. -/
structure HttpRequest where
  method : String
  path : String
  body : Body := .none
  query : List (String × String) := []
  origin : Option String := .none
deriving Repr

/-- A query for the connection between two people, with filters if there are any. -/
structure ConnectionQuery where
  first : Int
  second : Int
  filters : Option Record
deriving Repr

namespace ConnectionQuery

/-- The filters of a query as a value. -/
def given (q : ConnectionQuery) : Value :=
  (q.filters.map .map).getD .null

/-- Whether a record holds a query: two whole numbers, and filters under whole names or none. -/
structure IsIn (q : ConnectionQuery) (r : Record) : Prop where
  first : r.get? "first_person_id" = some (.int q.first)
  second : r.get? "second_person_id" = some (.int q.second)
  filters : (r.get? "filters").getD .null = q.given
  whole : ∀ filters, q.filters = some filters → ∀ e ∈ filters, e.1.isWhole = true

end ConnectionQuery

/-! ## Responses -/

/-- A reply with its status. -/
structure Reply where
  status : Nat
  body : Value
deriving Repr

/-- A reply as it is received, with the origin that may read it. -/
structure Response where
  status : Nat
  body : Value
  allowedOrigin : Option String
deriving Repr

/-- The reply where the handling of a request breaks down. -/
def brokenDown : Reply :=
  ⟨500, .text "Internal Server Error"⟩

/-- The names of entries that the service itself gives to what it sends. -/
def ownNames : List Text :=
  ["person", "relationship", "project", "__typename", "parent_show"]

/-! ## Frameworks -/

/-- A web framework. -/
structure Framework where
  /-- The endpoint for a method and a path, or the reply where there is none. -/
  route : (method path : String) → Except Reply Endpoint
  /-- The value of a body, if there is one, or the reply to a body that cannot be read. -/
  readBody : Body → Except Reply (Option Value)
  /-- The query of a body, or the reply to one that is not valid. -/
  readQuery : Option Value → Except Reply ConnectionQuery
  /-- The name that is asked for, or the reply where none is. -/
  readName : List (String × String) → Except Reply Text
  /-- The plain value of a value, if it has one. -/
  encode : Value → Option Value
  /-- Whether the entries of a name are kept in a plain value. -/
  keeps : Text → Bool
  /-- The number of values inside each other that there is room for. -/
  room : Nat
  /-- What is received of the content of a reply, if it can be sent. -/
  send : Content → Option Value
  /-- The response to a request with a reply, or without one where its handling broke down.  The
  origins are those that may read responses. -/
  respond : (origins : List String) → HttpRequest → Option Reply → Response

namespace Framework

/-- Whether a body is read and checked to be a query. -/
def Reads (F : Framework) (body : Body) (q : ConnectionQuery) : Prop :=
  ∃ v, F.readBody body = .ok v ∧ F.readQuery v = .ok q

/-- What the service relies on. -/
structure Lawful (F : Framework) : Prop where
  /-- Endpoints are found by their method and path. -/
  routes : ∀ e : Endpoint, F.route e.method e.path = .ok e
  /-- The value of a body is read. -/
  readBody_data : ∀ v, F.readBody (.data v) = .ok (some v)
  /-- A record that holds a query is one. -/
  readQuery_map : ∀ (r : Record) (q : ConnectionQuery), q.IsIn r →
    F.readQuery (some (.map r)) = .ok q
  /-- Null is plain. -/
  encode_null : F.encode .null = some .null
  /-- Texts are plain. -/
  encode_text : ∀ t, F.encode (.text t) = some (.text t)
  /-- A map is made plain entry by entry. -/
  encode_map : ∀ entries : Record, (Value.map entries).depth ≤ F.room →
    F.encode (.map entries) = ((entries.filter fun e => F.keeps e.1).mapM fun e =>
      (F.encode e.2).map fun v => (e.1, v)).map .map
  /-- No entry of the service's own is left out. -/
  keeps_own : ∀ name ∈ ownNames, F.keeps name = true
  /-- There is room for what the service puts around texts. -/
  room_le : 5 ≤ F.room
  /-- Content that is JSON is received as it is. -/
  send_json : ∀ c : Content, c.Fits → c.value.isJson = true → c.value.depth ≤ F.room →
    F.send c = some c.value
  /-- Whatever is received is JSON. -/
  isJson_send : ∀ c v, F.send c = some v → v.isJson = true
  /-- A reply is received as it is, but for that to a `HEAD`. -/
  respond_reply : ∀ origins request reply, request.method ≠ "HEAD" →
    (F.respond origins request (some reply)).status = reply.status ∧
      (F.respond origins request (some reply)).body = reply.body
  /-- Where the handling of a request breaks down, that is told. -/
  respond_none : ∀ origins request, request.method ≠ "HEAD" →
    (F.respond origins request none).status = brokenDown.status ∧
      (F.respond origins request none).body = brokenDown.body

end Framework

end Costar.Service
