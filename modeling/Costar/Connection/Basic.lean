import Costar.Connection.Project

/-!
# Connections

A connection between two people is a list of triples: a person, a credit and the project it is
for.  The same person or project may stand in several triples, and a change to it is seen in all
of them; so people and projects stand in two lists of their own and triples refer to them by
position.

Main definitions: `Connection` and `Connection.steps`.
-/

namespace Costar

/-- A person and a project by position, with the credit that joins them. -/
structure Triple where
  person : Nat
  credit : Credit
  project : Nat
deriving Repr

/-- People, projects and the triples made of them. -/
structure Connection where
  people : List Record := []
  projects : List Project := []
  triples : List Triple := []
deriving Repr

/-- A triple with what it refers to. -/
structure Step where
  person : Record
  credit : Credit
  project : Project
deriving Repr

namespace Step

/-- A step as it is reported. -/
def describe (s : Step) : Except Failure Record := do
  let project ← s.project.describe
  pure [("person", .map s.person), ("relationship", .map s.credit.describe),
    ("project", .map project)]

/-- The role of a credit: the character played, or else the job done. -/
def role (credit : Record) : Value :=
  if (credit.getOrNull "character").isGiven then credit.getOrNull "character"
  else if (credit.getOrNull "job").isGiven then credit.getOrNull "job"
  else .text "?"

/-- The name of a show in brackets after a step. -/
def showText (properties : Record) : Text :=
  " [" ++ ((properties.get? "name").getD (.text "Unknown show")).display ++ "]"

/-- A step as a line of text, with its number. -/
def line (index : Int) (s : Step) : Except Failure Text :=
  let person := (s.person.get? "name").getD (.text "Unknown")
  let title := (s.project.properties.get? "title").getD (.text "Unknown")
  let text := toString index ++ ". " ++ person.display ++ " (" ++
    (role s.credit.properties).display ++ ") in " ++ title.display
  match s.project with
  | .movie _ => .ok text
  | .episode _ .absent => .ok text
  | .episode _ (.found properties) => .ok (text ++ showText properties)
  | .episode _ .pending => .error .pendingShow

end Step

namespace Connection

/-- The step that a triple stands for. -/
def step (c : Connection) (t : Triple) : Step where
  person := (c.people[t.person]?).getD []
  credit := t.credit
  project := (c.projects[t.project]?).getD (.movie [])

/-- The steps of a connection. -/
def steps (c : Connection) : List Step :=
  c.triples.map c.step

/-- Whether every triple refers to a person and a project of the connection. -/
def WellFormed (c : Connection) : Prop :=
  ∀ t ∈ c.triples, t.person < c.people.length ∧ t.project < c.projects.length

/-- The connection of a single step. -/
def ofStep (s : Step) : Connection where
  people := [s.person]
  projects := [s.project]
  triples := [⟨0, s.credit, 0⟩]

/-- Moves the references of a triple. -/
def shift (people projects : Nat) (t : Triple) : Triple :=
  { t with person := people + t.person, project := projects + t.project }

/-- Puts the triples of a second connection, which shares nothing with the first, after those of
the first. -/
def append (c d : Connection) : Connection where
  people := c.people ++ d.people
  projects := c.projects ++ d.projects
  triples := c.triples ++ d.triples.map (shift c.people.length c.projects.length)

/-- Numbers in order of first appearance. -/
def firstAppearance (refs : List Nat) : List Nat :=
  refs.map fun i => refs.eraseDups.idxOf i

/-- For each triple the number of its person, in order of first appearance. -/
def personNumbers (c : Connection) : List Nat :=
  firstAppearance (c.triples.map (·.person))

/-- For each triple the number of its project, in order of first appearance. -/
def projectNumbers (c : Connection) : List Nat :=
  firstAppearance (c.triples.map (·.project))

/-- The parts of a triple that have properties. -/
inductive Part where
  | person
  | credit
  | project
deriving DecidableEq, Repr

/-- Sets a property of a part of a triple, for every triple that shares the part. -/
def setProperty (c : Connection) (index : Nat) (part : Part) (key : Text) (v : Value) :
    Except Failure Connection :=
  match c.triples[index]? with
  | none => .error (.noTriple index)
  | some t =>
    match part with
    | .person => .ok { c with people := c.people.modify t.person (·.put key v) }
    | .credit =>
      let change (t : Triple) : Triple := { t with credit := t.credit.mapProperties (·.put key v) }
      .ok { c with triples := c.triples.modify index change }
    | .project =>
      .ok { c with projects := c.projects.modify t.project (·.mapProperties (·.put key v)) }

end Connection

end Costar
