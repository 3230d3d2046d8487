import Costar.Proofs.Connection.Episodes
import Costar.Proofs.Request.Assembly
import Costar.Search

/-!
# What a search asks of the store

A search asks for nothing before its request is built and nothing for a person alone.  Otherwise it
asks for the path, once, and then for the shows of the path's episodes, one after another, but only
if the path has become a connection between the two people.

Main results:

- Definition `Search.queries`: the queries that the store sees of a search.
- Theorem `Search.queries_of_build`: the query for the path comes first, and what follows is left to
  the path.
- Theorem `Search.queriesOf_connect`: a valid path is followed by the lookups of its shows.
- Theorem `Search.queries_find`: all of it together, and no lookup before a failure that is
  reported.
-/

namespace Costar

namespace Run

variable {α β : Type} {x : Run α}

theorem bind_ofExcept (a : α) (f : α → Run β) : ofExcept (.ok a) >>= f = f a :=
  rfl

theorem queriesOf_bind_pure (x : Run α) (g : α → β) :
    Log.queriesOf (x >>= fun a => pure (g a)).events = Log.queriesOf x.events := by
  cases h : x.result with
  | error e => rw [bind_of_error h]
  | ok a =>
      rw [bind_of_ok h, Log.queriesOf_append]
      exact List.append_nil _

theorem result_bind_pure_of_error {g : α → β} {e : Failure}
    (h : (x >>= fun a => pure (g a)).result = .error e) : x.result = .error e := by
  cases hx : x.result with
  | error d =>
      rw [bind_of_error hx] at h
      cases h
      rfl
  | ok a =>
      rw [bind_of_ok hx] at h
      cases h

end Run

/-! ## Single queries -/

namespace Access

/-- The query for the path of a request. -/
def pathQuery (access : Access) (request : PathRequest) : Query :=
  ⟨.traversal request.text, request.parameters, access.timeout⟩

/-- The query for the show of a reference. -/
def showQuery (access : Access) (reference : Value) : Query :=
  ⟨.showLookup, [("tv_id", reference)], access.timeout⟩

end Access

namespace Enrichment

/-- The queries of an enrichment are for the shows of its path's episodes. -/
theorem queriesOf_enrich_of_ofPath {path : Path} {c : Connection}
    (h : Connection.ofPath path = .ok c) (access : Access) (stores : Stores) (timing : Timing)
    (concurrency : Int) :
    Log.queriesOf (enrich access stores timing concurrency c).run.events =
      path.showReferences.map access.showQuery := by
  rw [queriesOf_enrich, lookups_eq, ← Connection.references_episodes h, List.map_map, List.map_map]
  rfl

/-- A failure of an enrichment is not among those that are reported. -/
theorem reportedAs?_of_resultOf {access : Access} {stores : Stores} {c : Connection} {f : Failure}
    (h : resultOf access stores c = .error f) : f.reportedAs? = none := by
  rcases resultOf_eq_error.mp h with ⟨-, e, -, -, -, key, -, hresult, hnot⟩
  change Access.showResult _ (access.showLookup (stores e.1) key).reply = _ at hresult
  rcases Failure.bind_eq_error.mp hresult with hrows | ⟨rows, -, hshow⟩
  · rcases Access.rowsOf_eq_error.mp hrows with ⟨fault, -, rfl⟩
    unfold Fault.raised at hnot ⊢
    split at hnot
    · -- A fault of the store would only have given a warning.
      exact absurd rfl (hnot _ _)
    · rename_i hforeign
      rw [if_neg hforeign]
      rfl
  · exact Access.reportedAs?_of_showOf hshow

end Enrichment

/-! ## The queries of a search -/

/-- Whether a path becomes a connection and leads from one person to another. -/
def Path.Valid (p : Path) (first second : Value) : Prop :=
  (∃ c, Connection.ofPath p = .ok c) ∧ p.checkEndpoints first second = .ok ()

namespace Search

/-- The queries that the store sees of a search, in their order. -/
def queries (s : Search) (first second : Value) (filters : Filters) : List Query :=
  Log.queriesOf (s.find first second filters).events

variable {s : Search} {first second : Value} {filters : Filters} {request : PathRequest}
variable {path : Path}

theorem connect_of_valid {c : Connection} (hc : Connection.ofPath path = .ok c)
    (hends : path.checkEndpoints (.int request.first) (.int request.second) = .ok ()) :
    s.connect request path =
      (s.enrich c).run >>= fun _ => pure (s.enrich c).connection := by
  unfold connect
  rw [hc, hends]
  rfl

/-- A valid path is followed by the lookups of its shows, any other by nothing. -/
theorem queriesOf_connect (s : Search) (request : PathRequest) (path : Path) :
    (path.Valid (.int request.first) (.int request.second) →
      Log.queriesOf (s.connect request path).events =
        path.showReferences.map s.access.showQuery) ∧
    (¬ path.Valid (.int request.first) (.int request.second) →
      Log.queriesOf (s.connect request path).events = []) := by
  constructor
  · rintro ⟨⟨c, hc⟩, hends⟩
    rw [connect_of_valid hc hends, Run.queriesOf_bind_pure]
    exact Enrichment.queriesOf_enrich_of_ofPath hc s.access s.stores s.timing s.concurrency
  · intro hnot
    unfold connect
    cases hc : Connection.ofPath path with
    | error f => rfl
    | ok c =>
        cases hends : path.checkEndpoints (.int request.first) (.int request.second) with
        | error f => rfl
        | ok _ => exact absurd ⟨⟨c, hc⟩, hends⟩ hnot

/-- A search that has built its request for two people asks for the path and goes on from there. -/
theorem find_of_build
    (hrequest : PathRequest.build PathRequest.nodeVariable first second filters = .ok request)
    (hne : request.first ≠ request.second) :
    s.find first second filters = (do
      match ← s.access.findPath s.database request with
      | none => pure {}
      | some path => s.connect request path) := by
  unfold find
  rw [hrequest, Run.bind_ofExcept]
  exact if_neg hne

/-- The query for the path comes first; what follows is left to the path, if there is one. -/
theorem queries_of_build
    (hrequest : PathRequest.build PathRequest.nodeVariable first second filters = .ok request)
    (hne : request.first ≠ request.second) :
    s.queries first second filters = s.access.pathQuery request ::
      match (s.access.findPath s.database request).result with
      | .ok (some path) => Log.queriesOf (s.connect request path).events
      | _ => [] := by
  have hasked : Log.queriesOf (s.access.findPath s.database request).events =
      [s.access.pathQuery request] := Exchange.queriesOf_events _
  unfold queries
  rw [find_of_build hrequest hne]
  cases hfound : (s.access.findPath s.database request).result with
  | error f =>
      rw [Run.bind_of_error hfound]
      exact hasked
  | ok found =>
      rw [Run.bind_of_ok hfound, Log.queriesOf_append, hasked]
      cases found with
      | none => rfl
      | some path => rfl

/-- The ids of a request are those that were asked for. -/
theorem ids_of_build
    (hrequest : PathRequest.build PathRequest.nodeVariable first second filters = .ok request) :
    first = .int request.first ∧ second = .int request.second := by
  rcases PathRequest.build_eq_ok_iff.mp hrequest with ⟨m, n, -, -, rfl, rfl, -, -, rfl⟩
  exact ⟨rfl, rfl⟩

theorem queries_of_error {f : Failure}
    (h : PathRequest.build PathRequest.nodeVariable first second filters = .error f) :
    s.queries first second filters = [] := by
  unfold queries find
  rw [h]
  rfl

theorem queries_of_same
    (hrequest : PathRequest.build PathRequest.nodeVariable first second filters = .ok request)
    (hsame : request.first = request.second) : s.queries first second filters = [] := by
  unfold queries find
  rw [hrequest, Run.bind_ofExcept, if_pos hsame]
  rfl

/-- A valid path is followed by the lookups of its shows. -/
theorem queries_of_valid
    (hrequest : PathRequest.build PathRequest.nodeVariable first second filters = .ok request)
    (hne : request.first ≠ request.second)
    (hfound : (s.access.findPath s.database request).result = .ok (some path))
    (hvalid : path.Valid first second) : s.queries first second filters =
      s.access.pathQuery request :: path.showReferences.map s.access.showQuery := by
  rcases ids_of_build hrequest with ⟨rfl, rfl⟩
  rw [queries_of_build hrequest hne, hfound]
  exact congrArg _ ((queriesOf_connect s request path).1 hvalid)

/-- Where no valid path is found, nothing follows the query for the path. -/
theorem queries_of_not_valid
    (hrequest : PathRequest.build PathRequest.nodeVariable first second filters = .ok request)
    (hne : request.first ≠ request.second)
    (hnot : ∀ path, (s.access.findPath s.database request).result = .ok (some path) →
      ¬ path.Valid first second) :
    s.queries first second filters = [s.access.pathQuery request] := by
  rcases ids_of_build hrequest with ⟨rfl, rfl⟩
  rw [queries_of_build hrequest hne]
  refine congrArg _ ?_
  split
  · rename_i path hfound
    exact (queriesOf_connect s request path).2 (hnot path hfound)
  · rfl

/-- With a valid path a search can only end in failures that are not reported. -/
theorem reportedAs?_of_valid {f : Failure}
    (hrequest : PathRequest.build PathRequest.nodeVariable first second filters = .ok request)
    (hne : request.first ≠ request.second)
    (hfound : (s.access.findPath s.database request).result = .ok (some path))
    (hvalid : path.Valid first second) (h : (s.find first second filters).result = .error f) :
    f.reportedAs? = none := by
  rcases ids_of_build hrequest with ⟨rfl, rfl⟩
  rcases hvalid with ⟨⟨c, hc⟩, hends⟩
  rw [find_of_build hrequest hne, Run.bind_of_ok hfound] at h
  change (s.connect request path).result = .error f at h
  rw [connect_of_valid hc hends] at h
  have hresult := Run.result_bind_pure_of_error h
  have heq := (Enrichment.enrich_eq s.access s.stores s.timing s.concurrency c).2
  exact Enrichment.reportedAs?_of_resultOf (heq.symm.trans hresult)

/-- What a search asks of the store.  It asks for nothing exactly when the request cannot be built
or leads from a person to the same person.  Otherwise it asks for the path with the parameters of
the request, then for one show after another as they first appear on the path if that is valid, and
for nothing more in all other cases.  Where it ends in a failure that is reported, it has not asked
for any show. -/
theorem queries_find (s : Search) (first second : Value) (filters : Filters) :
    (s.queries first second filters = [] ↔
      (∃ f, PathRequest.build PathRequest.nodeVariable first second filters = .error f) ∨
        first = second) ∧
    (∀ request, PathRequest.build PathRequest.nodeVariable first second filters = .ok request →
      first ≠ second →
        (∀ path, (s.access.findPath s.database request).result = .ok (some path) →
          path.Valid first second → s.queries first second filters =
            s.access.pathQuery request :: path.showReferences.map s.access.showQuery) ∧
        ((∀ path, (s.access.findPath s.database request).result = .ok (some path) →
          ¬ path.Valid first second) →
            s.queries first second filters = [s.access.pathQuery request])) ∧
    ∀ f name, (s.find first second filters).result = .error f → f.reportedAs? = some name →
      ∀ query ∈ s.queries first second filters, query.statement ≠ .showLookup := by
  cases hbuild : PathRequest.build PathRequest.nodeVariable first second filters with
  | error g =>
      have hnone := queries_of_error (s := s) hbuild
      refine ⟨⟨fun _ => Or.inl ⟨g, rfl⟩, fun _ => hnone⟩, ?_, ?_⟩
      · intro request hrequest
        cases hrequest
      · intro f name _ _ query hquery
        rw [hnone] at hquery
        cases hquery
  | ok request =>
      have hids : first = second ↔ request.first = request.second := by
        rcases ids_of_build hbuild with ⟨rfl, rfl⟩
        simp
      rw [hids]
      by_cases hsame : request.first = request.second
      · have hnone := queries_of_same (s := s) hbuild hsame
        refine ⟨⟨fun _ => Or.inr hsame, fun _ => hnone⟩, ?_, ?_⟩
        · intro _ _ hne
          exact absurd (hids.mpr hsame) hne
        · intro f name _ _ query hquery
          rw [hnone] at hquery
          cases hquery
      · refine ⟨?_, ?_, ?_⟩
        · rw [queries_of_build hbuild hsame]
          simp [hsame]
        · intro _ hrequest _
          cases hrequest
          exact ⟨fun path => queries_of_valid hbuild hsame, queries_of_not_valid hbuild hsame⟩
        · intro f name hfailed hname query hquery
          have hnot : ∀ path, (s.access.findPath s.database request).result = .ok (some path) →
              ¬ path.Valid first second := by
            intro path hfound hvalid
            rw [reportedAs?_of_valid hbuild hsame hfound hvalid hfailed] at hname
            cases hname
          rw [queries_of_not_valid hbuild hsame hnot, List.mem_singleton] at hquery
          rw [hquery]
          exact nofun

/-- Two people who meet in an episode, in a store that finds them. -/
def coGuests : Search where
  database := Store.database {
    path := some (.path {
      nodes := [⟨"a", [Label.person], [("person_id", .int 1)]⟩,
        ⟨"b", [Label.episode], [("episode_id", .text "e"), ("show_id", .int 9)]⟩,
        ⟨"c", [Label.person], [("person_id", .int 2)]⟩]
      relationships := [⟨"r", "CAST_FOR", "a", "b", [("character", .text "Anna")]⟩,
        ⟨"s", "CREW_FOR", "c", "b", [("department", .text "Sound")]⟩] }) }
  access := ⟨none, .null⟩
  concurrency := defaultConcurrency
  timing := .inOrder

/-- The path of `coGuests` comes to their episode twice, and its show is looked up once. -/
theorem queries_coGuests :
    ∃ request, PathRequest.build PathRequest.nodeVariable (.int 1) (.int 2) (.given .null) =
        .ok request ∧
      coGuests.queries (.int 1) (.int 2) (.given .null) =
        [coGuests.access.pathQuery request, coGuests.access.showQuery (.int 9)] := by
  obtain ⟨request, hrequest⟩ : ∃ request,
      PathRequest.build PathRequest.nodeVariable (.int 1) (.int 2) (.given .null) =
        .ok request := ⟨_, rfl⟩
  obtain ⟨path, hfound, hvalid, hshows⟩ : ∃ path : Path,
      (coGuests.access.findPath coGuests.database request).result = .ok (some path) ∧
        path.Valid (.int 1) (.int 2) ∧ path.showReferences = [.int 9] :=
    ⟨_, rfl, ⟨⟨_, rfl⟩, rfl⟩, rfl⟩
  have hqueries := ((queries_find coGuests (.int 1) (.int 2) (.given .null)).2.1 request hrequest
    (by simp)).1 path hfound hvalid
  rw [hshows] at hqueries
  exact ⟨request, hrequest, hqueries⟩

end Search

end Costar
