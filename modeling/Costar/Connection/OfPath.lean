import Costar.Connection.Basic
import Costar.Graph.Path

/-!
# From paths to connections

A path becomes a connection with one triple for each segment, in the order of the path.  Nodes
with the same id become one person or one project, described by the properties of the node where
the id first stands.

Main definition: `Connection.ofPath`.
-/

namespace Costar

/-- Entries by id, in order of first appearance. -/
abbrev Register (α : Type) := List (String × α)

namespace Register

variable {α : Type}

/-- The register with an entry for an id, which is made if it has none yet, and the position of
the entry. -/
def enroll (r : Register α) (id : String) (make : Except Failure α) :
    Except Failure (Register α × Nat) :=
  match r.findIdx? (·.1 == id) with
  | some i => .ok (r, i)
  | none => make.map fun a => (r ++ [(id, a)], r.length)

end Register

/-- A connection in the making, with the ids of its people and projects. -/
structure Draft where
  people : Register Record := []
  projects : Register Project := []
  triples : List Triple := []
deriving Repr

namespace Draft

/-- The connection that a draft has become. -/
def toConnection (d : Draft) : Connection where
  people := d.people.map (·.2)
  projects := d.projects.map (·.2)
  triples := d.triples

/-- Checks that a segment starts where the one before it ended. -/
def checkContinues (index : Nat) (previous : Option Segment) (s : Segment) : Except Failure Unit :=
  match previous with
  | some p => if s.start.id = p.finish.id then .ok () else .error (.malformedSegment index .gap)
  | none => .ok ()

/-- Adds the triple of a segment. -/
def add (d : Draft) (index : Nat) (previous : Option Segment) (s : Segment) :
    Except Failure Draft := do
  checkContinues index previous s
  let (person, project) ← s.split index
  let (people, personIndex) ← d.people.enroll person.id (.ok person.properties)
  let (projects, projectIndex) ← d.projects.enroll project.id (Project.ofRecord project.properties)
  let credit ← Credit.ofRecord s.relationship.properties
  pure ⟨people, projects, d.triples ++ [⟨personIndex, credit, projectIndex⟩]⟩

/-- Adds the triples of a list of segments. -/
def addAll (d : Draft) (index : Nat) (previous : Option Segment) :
    List Segment → Except Failure Draft
  | [] => .ok d
  | s :: rest => do (← d.add index previous s).addAll (index + 1) (some s) rest

end Draft

namespace Connection

/-- The connection that a path describes. -/
def ofPath (p : Path) : Except Failure Connection :=
  match p with
  | [] => .error (.emptyPath .noSegments)
  | segments => (Draft.addAll {} 0 none segments).map (·.toConnection)

end Connection

end Costar
