import Costar.Graph.Path

/-!
# Sessions with the graph store

What is asked of the graph store and what it replies.  Every query has a session of its own,
which is opened for it and closed as soon as the reply is in, whatever the reply.

Main definitions: `Query`, `Reply`, `Database`, `Event`, `Exchange` and `Exchange.step`.
-/

namespace Costar

/-- What a query asks for: a path, the show of an id, or people with a text in their name. -/
inductive Statement where
  | traversal (text : String)
  | showLookup
  | nameSuggestion
deriving DecidableEq, Repr

namespace Statement

/-- The text of a statement. -/
def text : Statement → String
  | .traversal text => text
  | .showLookup =>
    "\nMATCH (s:" ++ Label.tvShow ++ ")\nWHERE s.tv_id IN [$tv_id, toString($tv_id)]\n" ++
      "RETURN s\nLIMIT 1\n"
  | .nameSuggestion =>
    "\nMATCH (p:" ++ Label.person ++ ")\nWHERE p.lowercase_name CONTAINS toLower($name)\n" ++
      "RETURN p\nORDER BY p.popularity DESC\nLIMIT $limit\n"

end Statement

/-- A statement with its parameters and the limit on its time; null is no limit. -/
structure Query where
  statement : Statement
  parameters : Record String
  timeout : Value
deriving Repr

/-- A path as the store holds it: relationship `i` stands between the nodes `i` and `i + 1`. -/
structure StoredPath where
  nodes : List Node
  relationships : List Relationship
deriving Repr

/-- What a row of a traversal holds under the name of the path. -/
inductive PathColumn where
  | missing
  | null
  | path (p : StoredPath)
deriving Repr

/-- What a row holds under the name of a node. -/
inductive EntityColumn where
  | missing
  | null
  | entity (properties : Record)
deriving Repr

/-- The reply to a query: a fault before anything was read, a fault while reading, or rows. -/
inductive Reply (α : Type) where
  | refused (fault : Fault)
  | interrupted (fault : Fault)
  | rows (rows : List α)
deriving Repr

namespace Reply

/-- The rows of a reply, or the fault that stood in their way. -/
def toExcept {α : Type} : Reply α → Except Fault (List α)
  | .refused fault => .error fault
  | .interrupted fault => .error fault
  | .rows found => .ok found

end Reply

/-- A graph store, as what it replies to queries. -/
structure Database where
  paths : Query → Reply PathColumn
  entities : Query → Reply EntityColumn
  connectFault : Option Fault

/-- How sessions are opened: on which database, and with which limit on the time of a query. -/
structure Access where
  database : Option String
  timeout : Value
deriving Repr

/-- What the store sees of a session. -/
inductive Event where
  | opened (database : Option String)
  | ran (query : Query)
  | closed
deriving Repr

/-- A query with the reply to it. -/
structure Exchange (α : Type) where
  database : Option String
  query : Query
  reply : Reply α
deriving Repr

namespace Exchange

variable {α : Type}

/-- Asks a query of the store. -/
def make (access : Access) (ask : Query → Reply α) (statement : Statement) (parameters : Record String) :
    Exchange α :=
  let query : Query := ⟨statement, parameters, access.timeout⟩
  ⟨access.database, query, ask query⟩

/-- How far an exchange has come: nothing has happened yet, its session is open, its query has been
asked, it is about to leave the session with rows or a fault, or it has left it with them. -/
inductive Stage (α : Type) where
  | idle
  | opened
  | asked
  | leaving (found : Except Fault (List α))
  | left (found : Except Fault (List α))

/-- The stage of an exchange whose query has been asked: the store may have refused it. -/
def askedStage (x : Exchange α) : Stage α :=
  match x.reply with
  | .refused fault => .leaving (.error fault)
  | _ => .asked

/-- The next step of an exchange, with what the store sees of it.  The session is closed whatever
the exchange leaves it with. -/
def step (x : Exchange α) : Stage α → Stage α × List Event
  | .idle => (.opened, [.opened x.database])
  | .opened => (x.askedStage, [.ran x.query])
  | .asked => (.leaving x.reply.toExcept, [])
  | .leaving found => (.left found, [.closed])
  | .left found => (.left found, [])

/-- What the store sees of a number of steps, from a stage on. -/
def eventsFrom (x : Exchange α) (stage : Stage α) : Nat → List Event
  | 0 => []
  | n + 1 => (x.step stage).2 ++ x.eventsFrom (x.step stage).1 n

/-- What the store sees until the query has been asked. -/
def start (x : Exchange α) : List Event :=
  x.eventsFrom .idle 2

/-- What the store sees from then on: there are two more steps at most. -/
def finish (x : Exchange α) : List Event :=
  x.eventsFrom x.askedStage 2

/-- What the store sees of the exchange. -/
def events (x : Exchange α) : List Event :=
  x.start ++ x.finish

theorem start_eq (x : Exchange α) : x.start = [.opened x.database, .ran x.query] :=
  rfl

theorem finish_eq (x : Exchange α) : x.finish = [.closed] := by
  unfold finish askedStage
  split <;> rfl

theorem events_eq (x : Exchange α) :
    x.events = [.opened x.database, .ran x.query, .closed] := by
  rw [events, start_eq, finish_eq]
  rfl

end Exchange

namespace Node

/-- A node with native values. -/
def toNative (n : Node) : Node :=
  { n with properties := n.properties.toNative }

end Node

namespace Relationship

/-- A relationship with native values. -/
def toNative (r : Relationship) : Relationship :=
  { r with properties := r.properties.toNative }

end Relationship

namespace StoredPath

/-- The segment of a relationship at a position. -/
def segment (p : StoredPath) (index : Nat) (r : Relationship) : Except Failure Segment :=
  match p.nodes[index]?, p.nodes[index + 1]? with
  | some start, some finish => .ok ⟨start.toNative, r.toNative, finish.toNative⟩
  | _, _ => .error (.missingNode (index + 1))

/-- The segments of a stored path.  Every relationship needs a node on both sides; further
nodes are left out. -/
def toPath (p : StoredPath) : Except Failure Path :=
  (p.relationships.zipIdx).mapM fun (r, index) => p.segment index r

end StoredPath

end Costar
