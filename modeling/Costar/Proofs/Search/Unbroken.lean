import Costar.Proofs.Connection.Acceptance
import Costar.Proofs.Request.Refusal
import Costar.Proofs.Search.Found
import Costar.Proofs.Search.Queries

/-!
# Paths without gaps

A path from the store is one list of nodes with the relationships between them, so what becomes of
it has no gap: where one segment ends, the next begins.  The check that a segment continues the one
before it is therefore passed in every search.

Main results:

- Theorem `StoredPath.not_isGap_of_ofPath`: no path from the store is found to have a gap.
- Theorem `Search.not_isGap_of_find`: no search ends with a gap.
- Theorem `Search.stored_paths_unbroken`: which stored paths become paths, what they become, and
  that no search finds a gap in them.
-/

namespace Costar

/-- Whether a failure reports that a segment does not continue the one before it. -/
def Failure.IsGap (f : Failure) : Prop :=
  ∃ index, f = .malformedSegment index .gap

namespace Failure

variable {f : Failure}

/-- A gap is reported as a malformed segment. -/
theorem IsGap.reportedAs? (h : f.IsGap) : f.reportedAs? = some "MalformedSegment" := by
  rcases h with ⟨index, rfl⟩
  rfl

theorem IsGap.not_isRefusal (h : f.IsGap) : ¬ f.IsRefusal := by
  unfold IsRefusal
  rw [h.reportedAs?]
  decide

end Failure

/-! ## The stages of a search -/

variable {f : Failure}

theorem PathRequest.not_isGap_of_build {node : String} {first second : Value} {filters : Filters}
    (h : PathRequest.build node first second filters = .error f) : ¬ f.IsGap := by
  intro hgap
  rcases build_error_cases h with hrefusal | rfl | rfl
  · exact hgap.not_isRefusal hrefusal
  · cases hgap.reportedAs?
  · cases hgap.reportedAs?

namespace StoredPath

variable {p : StoredPath} {path : Path}

/-- Every segment of a path from the store continues the one before it. -/
theorem passes_continues (h : p.toPath = .ok path) {earlier later : List Segment} {s : Segment}
    (hsplit : path = earlier ++ s :: later) : s.Passes earlier .continues := by
  intro previous hprevious
  rcases List.getLast?_eq_some_iff.mp hprevious with ⟨before, rfl⟩
  have hfirst : path[before.length]? = some previous := by simp [hsplit]
  have hsecond : path[before.length + 1]? = some s := by simp [hsplit]
  rw [finish_eq_start h hfirst hsecond]

/-- No path from the store is found to have a gap. -/
theorem not_isGap_of_ofPath (h : p.toPath = .ok path) (hf : Connection.ofPath path = .error f) :
    ¬ f.IsGap := by
  rintro ⟨index, rfl⟩
  rcases Connection.ofPath_eq_error.mp hf with ⟨-, hempty⟩ | ⟨earlier, s, check, hoffence, hcheck⟩
  · cases hempty
  · rcases hoffence.found with ⟨later, hsplit⟩
    cases check with
    | continues => exact hoffence.fails.2 (passes_continues h hsplit)
    | _ => cases hcheck

end StoredPath

theorem Path.not_isGap_of_checkEndpoints {path : Path} {first second : Value}
    (h : path.checkEndpoints first second = .error f) : ¬ f.IsGap := by
  rintro ⟨index, rfl⟩
  unfold checkEndpoints at h
  split at h
  · split at h
    · cases h
    · split at h <;> cases h
  · cases h

namespace Access

variable {access : Access} {db : Database} {request : PathRequest}

/-- The first row of a traversal counts. -/
theorem pathOf_path (p : StoredPath) (rows : List PathColumn) :
    pathOf (.path p :: rows) = p.toPath.map some :=
  rfl

theorem not_isGap_of_findPath (h : (access.findPath db request).result = .error f) :
    ¬ f.IsGap := by
  rintro ⟨index, rfl⟩
  rcases Failure.bind_eq_error.mp h with hrows | ⟨rows, -, hpath⟩
  · rcases rowsOf_eq_error.mp hrows with ⟨fault, -, hraised⟩
    unfold Fault.raised at hraised
    split at hraised <;> cases hraised
  · unfold pathOf at hpath
    split at hpath
    case h_4 p _ =>
      rcases StoredPath.toPath_eq_error (Failure.map_eq_error.mp hpath) with ⟨-, _, hmissing⟩
      cases hmissing
    all_goals cases hpath

end Access

/-! ## Searches -/

theorem Run.result_bind_eq_error {α β : Type} {x : Run α} {g : α → Run β} :
    (x >>= g).result = .error f ↔
      x.result = .error f ∨ ∃ a, x.result = .ok a ∧ (g a).result = .error f := by
  cases hx : x.result with
  | error e => simp [Run.bind_of_error hx]
  | ok a => simp [Run.bind_of_ok hx]

namespace Search

variable {s : Search} {first second : Value} {filters : Filters}

/-- What a path that is not valid fails by. -/
theorem connect_of_not_valid {request : PathRequest} {path : Path}
    (hnot : ¬ path.Valid (.int request.first) (.int request.second))
    (h : (s.connect request path).result = .error f) :
    Connection.ofPath path = .error f ∨
      path.checkEndpoints (.int request.first) (.int request.second) = .error f := by
  rcases Run.result_bind_eq_error.mp h with hpath | ⟨c, hc, h⟩
  · exact Or.inl hpath
  · rcases Run.result_bind_eq_error.mp h with hends | ⟨_, hends, -⟩
    · exact Or.inr hends
    · exact absurd ⟨⟨c, hc⟩, hends⟩ hnot

/-- No search ends with a gap in its path. -/
theorem not_isGap_of_find (h : (s.find first second filters).result = .error f) : ¬ f.IsGap := by
  intro hgap
  cases hbuild : PathRequest.build PathRequest.nodeVariable first second filters with
  | error g =>
      unfold find at h
      rw [hbuild] at h
      cases h
      exact PathRequest.not_isGap_of_build hbuild hgap
  | ok request =>
      by_cases hsame : request.first = request.second
      · unfold find at h
        rw [hbuild, Run.bind_ofExcept, if_pos hsame] at h
        cases h
        rcases hgap with ⟨_, hgap⟩
        cases hgap
      · have hfind := h
        rw [find_of_build hbuild hsame] at h
        rcases Run.result_bind_eq_error.mp h with hfound | ⟨found, hfound, h⟩
        · exact Access.not_isGap_of_findPath hfound hgap
        · cases found with
          | none => cases h
          | some path =>
              rcases Access.exists_toPath_of_findPath hfound with ⟨-, p, -, -, hp⟩
              rcases ids_of_build hbuild with ⟨rfl, rfl⟩
              by_cases hvalid : path.Valid (.int request.first) (.int request.second)
              · have hnone := reportedAs?_of_valid hbuild hsame hfound hvalid hfind
                rw [hgap.reportedAs?] at hnone
                cases hnone
              · rcases connect_of_not_valid hvalid h with hpath | hends
                · exact StoredPath.not_isGap_of_ofPath hp hpath hgap
                · exact Path.not_isGap_of_checkEndpoints hends hgap

/-- What the rows of a traversal make of a stored path: they fail for a missing node exactly when it
lacks nodes, and otherwise give a path of one segment for each relationship, which is walked from
node to node.  So no search, of any store, ends with a segment that does not continue the one before
it. -/
theorem stored_paths_unbroken :
    (∀ (p : StoredPath) (rows : List PathColumn),
      ((∃ index, Access.pathOf (.path p :: rows) = .error (.missingNode index)) ↔
        1 ≤ p.relationships.length ∧ p.nodes.length < p.relationships.length + 1) ∧
      ((∃ path, Access.pathOf (.path p :: rows) = .ok (some path) ∧ p.Unfolds path) ↔
        ¬ (1 ≤ p.relationships.length ∧ p.nodes.length < p.relationships.length + 1))) ∧
    ∀ (s : Search) (first second : Value) (filters : Filters) (index : Int),
      (s.find first second filters).result ≠ .error (.malformedSegment index .gap) := by
  constructor
  · intro p rows
    simp only [Access.pathOf_path, Failure.map_eq_error]
    refine ⟨p.toPath_eq_missingNode, ?_⟩
    constructor
    · rintro ⟨path, hpath, -⟩ hlacks
      rcases p.toPath_eq_missingNode.mpr hlacks with ⟨index, hmissing⟩
      rw [hmissing] at hpath
      cases hpath
    · intro hnot
      cases h : p.toPath with
      | ok path => exact ⟨path, rfl, StoredPath.unfolds_of_toPath h⟩
      | error f => exact absurd (StoredPath.toPath_eq_error h).1 hnot
  · intro s first second filters index h
    exact not_isGap_of_find h ⟨index, rfl⟩

end Search

end Costar
