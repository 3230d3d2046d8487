import Costar.Failure
import Costar.Schema

/-!
# Paths in the graph

Nodes, relationships and the paths made of them.  A path is kept in the order in which it is
walked: each segment goes from the node reached first to the node reached next, whichever way
its relationship points.

Main definitions: `Segment.roles?` (the person and the project of a segment),
`Segment.split` and `Path.checkEndpoints`.
-/

namespace Costar

/-- A node with its labels and properties. -/
structure Node where
  id : String
  labels : List String
  properties : Record
deriving Repr

/-- A relationship; it points from `start` to `finish`. -/
structure Relationship where
  id : String
  type : String
  start : String
  finish : String
  properties : Record
deriving Repr

/-- One step of a path. -/
structure Segment where
  start : Node
  relationship : Relationship
  finish : Node
deriving Repr

/-- A path, segment by segment. -/
abbrev Path := List Segment

namespace Node

/-- Whether a node is labelled as a person. -/
def isPerson (n : Node) : Bool :=
  n.labels.contains Label.person

/-- Whether a node is labelled as a project. -/
def isProject (n : Node) : Bool :=
  Label.projects.any n.labels.contains

/-- The labels of a node, each once and in order. -/
def sortedLabels (n : Node) : List String :=
  n.labels.eraseDups.mergeSort fun a b => a ≤ b

/-- Whether a node is the person with an id. -/
def isPersonWithId (n : Node) (id : Value) : Bool :=
  n.isPerson && (Record.getOrNull n.properties "person_id").same id

end Node

namespace Segment

/-- The person and the project that a segment joins, if it joins exactly one of each. -/
def roles? (s : Segment) : Option (Node × Node) :=
  match s.start.isPerson, s.start.isProject, s.finish.isPerson, s.finish.isProject with
  | true, false, false, true => some (s.start, s.finish)
  | false, true, true, false => some (s.finish, s.start)
  | _, _, _, _ => none

/-- Whether the relationship of a segment joins its two nodes, in either direction. -/
def isJoined (s : Segment) : Bool :=
  let ends := [s.relationship.start, s.relationship.finish]
  let nodes := [s.start.id, s.finish.id]
  ends.all nodes.contains && nodes.all ends.contains

/-- The person and the project of a segment, which has to join them by a credit. -/
def split (index : Int) (s : Segment) : Except Failure (Node × Node) :=
  match s.roles? with
  | none =>
    .error (.malformedSegment index (.labels s.start.sortedLabels s.finish.sortedLabels))
  | some roles =>
    if !creditTypes.contains s.relationship.type then
      .error (.malformedSegment index (.creditType s.relationship.type))
    else if !s.isJoined then
      .error (.malformedSegment index .ends)
    else
      .ok roles

end Segment

namespace Path

/-- The nodes of a path in order. -/
def nodes (p : Path) : List Node :=
  match p with
  | [] => []
  | s :: _ => s.start :: p.map (·.finish)

/-- Checks that a path leads from the person with one id to the person with another. -/
def checkEndpoints (p : Path) (first second : Value) : Except Failure Unit :=
  match p.head?, p.getLast? with
  | some s, some t =>
    if !s.start.isPersonWithId first then
      .error (.malformedSegment 0 (.wrongStart first))
    else if !t.finish.isPersonWithId second then
      .error (.malformedSegment (p.length - 1) (.wrongEnd second))
    else
      .ok ()
  | _, _ => .error .noNodes

end Path

end Costar
