import Costar.Proofs.Connection.Distinct
import Costar.Proofs.Enrichment.Lookups

/-!
# The episodes along a path

The projects of a connection are the distinct project nodes of its path, in the order in which they
first appear.  So which shows are looked up, and in which order, can be read off the path.

Main results:

- Definition `Path.showReferences`: the shows that the episodes along a path refer to.
- Theorem `Draft.Collects.references`: the projects of a draft refer to them.
- Theorem `Connection.references_episodes`: the episodes of the connection of a path refer to the
  shows of the path.
-/

namespace Costar

/-! ## Shows along a path -/

/-- The show that a project refers to; none for movies, and for episodes without a reference. -/
def Project.reference? : Project → Option Value
  | .movie _ => none
  | .episode r _ => if (showReference r).isNull then none else some (showReference r)

/-- The show that a node refers to, if it is that of an episode with a reference. -/
def Node.reference? (n : Node) : Option Value :=
  match Project.ofRecord n.properties with
  | .ok project => project.reference?
  | .error _ => none

namespace Path

/-- The shows that the episodes along a path refer to: one for each distinct episode with a
reference, in the order in which they first appear. -/
def showReferences (p : Path) : List Value :=
  (Node.distinct p.projects).filterMap Node.reference?

end Path

namespace Draft

/-- The projects of a draft refer to the shows of its path. -/
theorem Collects.references {d : Draft} {segments : List Segment} (hd : d.Collects segments) :
    (d.projects.map (·.2)).filterMap Project.reference? = Path.showReferences segments := by
  have hall := hd.projects
  unfold Path.showReferences
  generalize d.projects = entries at hall
  generalize Node.distinct (Path.projects segments) = nodes at hall
  induction hall with
  | nil => rfl
  | @cons n e nodes entries hentry _ ih =>
      have hn : n.reference? = e.2.reference? := by
        unfold Node.reference?
        rw [hentry.2]
      rw [List.map_cons, List.filterMap_cons, List.filterMap_cons, hn, ih]

end Draft

/-! ## The episodes of a connection -/

namespace Connection

theorem reference_episodeAt? (c : Connection) (i : Nat) :
    ((c.episodeAt? i).bind fun e =>
      if Enrichment.refersToShow e.2 then some (Project.showReference e.2) else none) =
        (c.projects[i]?.map Project.reference?).bind id := by
  unfold episodeAt?
  cases c.projects[i]? with
  | none => rfl
  | some project =>
      cases project with
      | movie r => rfl
      | episode r parent =>
          by_cases hnull : (Project.showReference r).isNull = true <;>
            simp [Project.reference?, Enrichment.refersToShow, hnull]

/-- The episodes of the connection of a path that refer to shows are those of the path, in their
order. -/
theorem references_episodes {path : Path} {c : Connection} (h : ofPath path = .ok c) :
    (c.episodes.filter fun e => Enrichment.refersToShow e.2).map
      (fun e => Project.showReference e.2) = path.showReferences := by
  rcases ofPath_eq_ok h with ⟨-, d, hd, rfl⟩
  have hcollects := Draft.collects_empty.addAll hd
  have hlength : d.projects.length = d.toConnection.projects.length :=
    (List.length_map _).symm
  have hepisodes : d.toConnection.episodes =
      (List.range d.toConnection.projects.length).filterMap d.toConnection.episodeAt? := by
    rw [← hlength, ← hcollects.referred]
    rfl
  calc (d.toConnection.episodes.filter fun e => Enrichment.refersToShow e.2).map
        (fun e => Project.showReference e.2)
      = (List.range d.toConnection.projects.length).filterMap
          (fun i => (d.toConnection.projects[i]?.map Project.reference?).bind id) := by
        rw [hepisodes, ← List.filterMap_eq_map, List.filterMap_filter, List.filterMap_filterMap]
        exact List.filterMap_congr fun i _ => reference_episodeAt? _ i
    _ = (d.toConnection.projects.map Project.reference?).filterMap id := by
        rw [← List.filterMap_filterMap, filterMap_range_getElem?]
    _ = (d.projects.map (·.2)).filterMap Project.reference? := by
        rw [List.filterMap_map]
        rfl
    _ = path.showReferences := hcollects.references

end Connection

end Costar
