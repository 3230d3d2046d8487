import Costar.Record
import Costar.Service.Json

/-!
# Contents of replies

What the endpoints of the service reply with, as it is declared.

Main definitions: `Content`, `Content.value` and `Content.Fits`.
-/

namespace Costar.Service

/-- The version of the service. -/
def version : String := "0.1.0"

/-- The content of a reply. -/
inductive Content where
  /-- The steps of a connection, and the milliseconds that it took to find it. -/
  | connection (triples : List Value) (elapsed : Binary64)
  /-- People with a text in their name. -/
  | suggestions (people : List Value)
  /-- Whether the graph store can be reached. -/
  | health (reachable : Bool)
  /-- A failure that is reported, by its name and its wording. -/
  | failure (name : String) (message : Text)

namespace Content

/-- The content of a reply as a value. -/
def value : Content → Value
  | .connection triples elapsed =>
    .map [("results", .list triples), ("total_found", .int triples.length),
      ("query_time_ms", .float elapsed)]
  | .suggestions people => .map [("results", .list people)]
  | .health reachable =>
    .map [("status", .text (if reachable then "healthy" else "degraded")),
      ("version", .text version), ("components", .map [("neo4j", .bool reachable)])]
  | .failure name message =>
    .map [("error", .text name), ("details", .map [("message", .text message)])]

/-- Whether a value is a step of a connection: a person, a relationship and a project, each with its
properties. -/
def IsTriple (v : Value) : Prop :=
  ∃ person relationship project : Record, v = .map [("person", .map person),
    ("relationship", .map relationship), ("project", .map project)]

/-- Whether the content of a reply is as it is declared. -/
def Fits : Content → Prop
  | .connection triples _ => ∀ t ∈ triples, IsTriple t
  | .suggestions people => ∀ p ∈ people, p.isMap = true
  | .health _ => True
  | .failure _ _ => True

end Content

end Costar.Service
