import Costar.Connection.Basic
import Costar.Enrichment.Schedule
import Costar.Graph.Queries

/-!
# Enrichment

The show of every episode of a connection is looked up, each episode's once.  An episode that
refers to no show, or to one that is not stored, or whose lookup fails in the store, has none; the
last two give a warning.  Any other fault fails the enrichment, but only when all lookups have
finished, and of several the one of the first episode counts.

The store may be another one at each lookup, and the lookups may finish in any order.

Main definitions: `Connection.episodes`, `Enrichment.along` (enrichment along a schedule) and
`Enrichment.enrich`.
-/

namespace Costar

namespace Connection

/-- The properties of the project at a position, if it is an episode. -/
def episodeAt? (c : Connection) (i : Nat) : Option (Nat × Record) :=
  match c.projects[i]? with
  | some (.episode properties _) => some (i, properties)
  | _ => none

/-- The positions of the episodes of a connection with their properties, in the order in which
the triples first refer to them. -/
def episodes (c : Connection) : List (Nat × Record) :=
  (c.triples.map (·.project)).eraseDups.filterMap c.episodeAt?

/-- Replaces the show of the episode at a position. -/
def setParent (c : Connection) (i : Nat) (parent : ParentShow) : Connection :=
  { c with projects := c.projects.modify i (·.withParent parent) }

end Connection

namespace Enrichment

/-- The lookup of the show that an episode refers to. -/
structure Lookup where
  position : Nat
  episodeId : Value
  reference : Value
  exchange : Exchange EntityColumn

namespace Lookup

/-- What comes of a lookup. -/
def result (l : Lookup) : Except Failure (Option Record) :=
  Access.showResult l.reference l.exchange.reply

/-- The show that a lookup leaves the episode with; none for a fault that is not the store's. -/
def parent? (l : Lookup) : Option ParentShow :=
  match l.result with
  | .ok (some properties) => some (.found properties)
  | .ok none => some .absent
  | .error (.lookupFailed _ _) => some .absent
  | .error _ => none

/-- The warnings that a lookup gives. -/
def warnings (l : Lookup) : List Warning :=
  match l.result with
  | .ok (some _) => []
  | .ok none => [.missingShow l.episodeId l.reference]
  | .error (.lookupFailed key fault) => [.lookupFailed l.episodeId (.lookupFailed key fault)]
  | .error _ => []

/-- The failure of a lookup that fails the enrichment. -/
def failure? (l : Lookup) : Option Failure :=
  match l.result with
  | .ok _ => none
  | .error (.lookupFailed _ _) => none
  | .error f => some f

end Lookup

/-- The episodes of a connection that refer to no show. -/
def unreferenced (c : Connection) : List Nat :=
  (c.episodes.filter fun e => (Project.showReference e.2).isNull).map (·.1)

/-- The store as it is when the episode at each position is looked up. -/
abbrev Stores := Nat → Database

/-- The lookups for the episodes of a connection, in their order. -/
def lookups (access : Access) (stores : Stores) (c : Connection) : List Lookup :=
  (c.episodes.filter fun e => !(Project.showReference e.2).isNull).map fun e =>
    let reference := Project.showReference e.2
    ⟨e.1, Project.episodeId e.2, reference, access.showLookup (stores e.1) reference⟩

/-- How far an enrichment has come. -/
structure Progress where
  connection : Connection
  events : List Event := []
  warnings : List Warning := []

namespace Progress

/-- Attaches to an episode what came of its lookup. -/
def settle (p : Progress) (l : Lookup) : Progress where
  connection :=
    match l.parent? with
    | some parent => p.connection.setParent l.position parent
    | none => p.connection
  events := p.events ++ l.exchange.finish
  warnings := p.warnings ++ l.warnings

/-- Goes one move of a schedule further. -/
def advance (ls : List Lookup) (p : Progress) : Move → Progress
  | .start i =>
    match ls[i]? with
    | some l => { p with events := p.events ++ l.exchange.start }
    | none => p
  | .finish i =>
    match ls[i]? with
    | some l => p.settle l
    | none => p

end Progress

/-- The enriched connection, even after a failure, with the run that led to it. -/
structure Outcome where
  connection : Connection
  run : Run Unit

/-- Enriches a connection along a schedule of its lookups. -/
def along (schedule : Schedule) (ls : List Lookup) (c : Connection) : Outcome :=
  let begun := (unreferenced c).foldl (fun acc i => acc.setParent i .absent) c
  let progress := schedule.foldl (Progress.advance ls) { connection := begun }
  let result :=
    match ls.findSome? Lookup.failure? with
    | some f => .error f
    | none => .ok ()
  ⟨progress.connection, ⟨progress.events, progress.warnings, result⟩⟩

/-- The number of lookups that may be under way together: at least one. -/
def limit (concurrency : Int) : Nat :=
  max 1 concurrency.toNat

/-- Enriches a connection, with as many lookups under way together as the limit allows. -/
def enrich (access : Access) (stores : Stores) (timing : Timing) (concurrency : Int)
    (c : Connection) : Outcome :=
  let ls := lookups access stores c
  along (timing.schedule (limit concurrency) ls.length) ls c

end Enrichment

end Costar
