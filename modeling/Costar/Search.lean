import Costar.Connection.OfPath
import Costar.Enrichment.Enrich
import Costar.Graph.Store

/-!
# Search

The search for the shortest connection between two people: the request is built, the store is
asked for the path, the path becomes a connection, its ends are checked and its episodes
enriched.  Where no path satisfies the filters the connection is empty.
-/

namespace Costar

/-- A graph store with the way in which it is asked, and the times that its answers take. -/
structure Search where
  database : Database
  access : Access
  concurrency : Int
  timing : Timing

namespace Search

/-- The number of lookups under way together that is usual. -/
def defaultConcurrency : Int := 8

/-- The store that each episode is looked up in. -/
def stores (s : Search) : Enrichment.Stores :=
  fun _ => s.database

/-- Enriches a connection. -/
def enrich (s : Search) (c : Connection) : Enrichment.Outcome :=
  Enrichment.enrich s.access s.stores s.timing s.concurrency c

/-- The connection that a path from the store stands for. -/
def connect (s : Search) (request : PathRequest) (path : Path) : Run Connection := do
  let connection ← .ofExcept (Connection.ofPath path)
  Run.ofExcept (path.checkEndpoints (.int request.first) (.int request.second))
  let outcome := s.enrich connection
  outcome.run
  pure outcome.connection

/-- Finds the shortest connection between two people. -/
def find (s : Search) (first second : Value) (filters : Filters) : Run Connection := do
  let request ← .ofExcept (PathRequest.build PathRequest.nodeVariable first second filters)
  if request.first = request.second then
    .fail (.emptyPath (.samePerson (.int request.first)))
  else
    match ← s.access.findPath s.database request with
    | none => pure {}
    | some path => s.connect request path

end Search

end Costar
