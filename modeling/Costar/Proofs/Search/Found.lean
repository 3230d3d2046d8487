import Costar.Proofs.Connection.Alternation
import Costar.Proofs.Connection.Settled
import Costar.Proofs.Graph.StoredPath
import Costar.Proofs.Request.Build
import Costar.Search

/-!
# What a search finds

A search that gives a connection has either found a path, checked its ends and enriched what became
of it, or has been told that there is no path.

Main results:

- Theorem `Search.find_eq_ok`: the two ways in which a search succeeds.
- Theorem `Search.settled_of_find`: no episode of what a search finds is pending.
- Theorem `Search.find_connects`: a connection with steps leads from the one person to the other,
  and there are no steps exactly when there is no path between two different people.
-/

namespace Costar

/-! ## Steps of a search -/

theorem Run.result_bind_eq_ok {α β : Type} {x : Run α} {f : α → Run β} {b : β} :
    (x >>= f).result = .ok b ↔ ∃ a, x.result = .ok a ∧ (f a).result = .ok b := by
  cases hx : x.result with
  | error e => simp [Run.bind_of_error hx]
  | ok a => simp [Run.bind_of_ok hx]

/-- The two people of a request are those that were asked for. -/
theorem PathRequest.ids_of_build {node : String} {first second : Int} {filters : Filters}
    {request : PathRequest}
    (h : PathRequest.build node (.int first) (.int second) filters = .ok request) :
    request.first = first ∧ request.second = second := by
  rcases build_eq_ok h with ⟨_, -, -, hfirst, hsecond, -⟩
  exact ⟨hfirst, hsecond⟩

/-- A path that is found is what becomes of one that the store holds. -/
theorem Access.exists_toPath_of_findPath {access : Access} {db : Database} {request : PathRequest}
    {path : Path} (h : (access.findPath db request).result = .ok (some path)) :
    ∃ rows p, (access.traversal db request).reply.toExcept = .ok rows ∧ .path p ∈ rows ∧
      p.toPath = .ok path := by
  rcases Failure.bind_eq_ok.mp h with ⟨rows, hrows, hpath⟩
  unfold pathOf at hpath
  split at hpath
  · cases hpath
  · cases hpath
  · cases hpath
  · rename_i p hp
    refine ⟨rows, p, rowsOf_eq_ok.mp hrows, List.mem_of_head? hp, ?_⟩
    cases hconverted : p.toPath with
    | error f =>
        rw [hconverted] at hpath
        cases hpath
    | ok found =>
        rw [hconverted] at hpath
        cases hpath
        rfl

/-- What a consistent store holds is consistent. -/
theorem Access.findPath_eq_some {access : Access} {db : Database} {request : PathRequest}
    {path : Path} (hdb : db.Consistent)
    (h : (access.findPath db request).result = .ok (some path)) :
    ∃ p : StoredPath, p.Consistent ∧ p.toPath = .ok path := by
  rcases exists_toPath_of_findPath h with ⟨rows, p, hrows, hp, hpath⟩
  exact ⟨p, hdb _ rows hrows p hp, hpath⟩

namespace Connection

/-- An enrichment does not change whom a connection leads to. -/
theorem Connects.enriched {c : Connection} {first second : Int} (h : c.Connects first second)
    (access : Access) (stores : Enrichment.Stores) :
    (c.enriched access stores).Connects first second where
  wellFormed := by
    intro t ht
    rcases h.wellFormed t ht with ⟨hperson, hproject⟩
    exact ⟨hperson, by simpa [Connection.enriched] using hproject⟩
  length_eq := h.length_eq
  same_project := h.same_project
  same_person := h.same_person
  starts_at := h.starts_at
  ends_at := h.ends_at

end Connection

namespace Search

variable {s : Search} {first second : Int} {filters : Filters}

/-- What a search comes to when it enriches a connection. -/
theorem enrich_eq (s : Search) (c : Connection) :
    (s.enrich c).connection = c.enriched s.access s.stores ∧
      (s.enrich c).run.result = Enrichment.resultOf s.access s.stores c :=
  Enrichment.enrich_eq s.access s.stores s.timing s.concurrency c

theorem connect_eq_ok {request : PathRequest} {path : Path} {c : Connection} :
    (s.connect request path).result = .ok c ↔
      ∃ drafted, Connection.ofPath path = .ok drafted ∧
        path.checkEndpoints (.int request.first) (.int request.second) = .ok () ∧
        Enrichment.resultOf s.access s.stores drafted = .ok () ∧
        c = drafted.enriched s.access s.stores := by
  simp only [connect, Run.result_bind_eq_ok, Run.result_ofExcept]
  constructor
  · rintro ⟨drafted, hdrafted, _, hcheck, _, hrun, hc⟩
    obtain ⟨hconnection, hresult⟩ := enrich_eq s drafted
    rw [hresult] at hrun
    cases hc
    exact ⟨drafted, hdrafted, hcheck, hrun, hconnection⟩
  · rintro ⟨drafted, hdrafted, hcheck, hrun, rfl⟩
    obtain ⟨hconnection, hresult⟩ := enrich_eq s drafted
    refine ⟨drafted, hdrafted, (), hcheck, (), hresult.trans hrun, ?_⟩
    rw [hconnection]
    rfl

/-- A search that succeeds finds no path, or makes a connection of the path that it finds. -/
theorem eq_empty_or_connect {first second : Value} {c : Connection}
    (h : (s.find first second filters).result = .ok c) :
    c = {} ∨ ∃ request path, (s.connect request path).result = .ok c := by
  simp only [find, Run.result_bind_eq_ok, Run.result_ofExcept] at h
  rcases h with ⟨request, -, h⟩
  split at h
  · cases h
  · rcases Run.result_bind_eq_ok.mp h with ⟨found, -, h⟩
    cases found with
    | none =>
        cases h
        exact Or.inl rfl
    | some path => exact Or.inr ⟨request, path, h⟩

/-- What a search finds is well formed, and no episode in it is pending. -/
theorem settled_of_find {first second : Value} {c : Connection}
    (h : (s.find first second filters).result = .ok c) : c.WellFormed ∧ c.Settled := by
  rcases eq_empty_or_connect h with rfl | ⟨request, path, h⟩
  · constructor <;>
    · intro t ht
      cases ht
  · rcases connect_eq_ok.mp h with ⟨drafted, hdrafted, -, hresult, rfl⟩
    have hwf := Connection.wellFormed_of_ofPath hdrafted
    exact ⟨hwf.of_becomes (Connection.becomes_enriched _ _ _) rfl,
      Connection.settled_enriched hresult⟩

/-- A search succeeds without steps when there is no path, and otherwise with what becomes of the
path. -/
theorem find_eq_ok {c : Connection} :
    (s.find (.int first) (.int second) filters).result = .ok c ↔
      first ≠ second ∧ ∃ request,
        PathRequest.build PathRequest.nodeVariable (.int first) (.int second) filters =
          .ok request ∧
        ((s.access.findPath s.database request).result = .ok none ∧ c = {} ∨
          ∃ path, (s.access.findPath s.database request).result = .ok (some path) ∧
            (s.connect request path).result = .ok c) := by
  simp only [find, Run.result_bind_eq_ok, Run.result_ofExcept]
  constructor
  · rintro ⟨request, hrequest, h⟩
    rcases PathRequest.ids_of_build hrequest with ⟨hfirst, hsecond⟩
    split at h
    · cases h
    · rename_i hne
      rcases Run.result_bind_eq_ok.mp h with ⟨found, hfound, h⟩
      rw [hfirst, hsecond] at hne
      refine ⟨hne, request, hrequest, ?_⟩
      cases found with
      | none =>
          cases h
          exact Or.inl ⟨hfound, rfl⟩
      | some path => exact Or.inr ⟨path, hfound, h⟩
  · rintro ⟨hne, request, hrequest, h⟩
    rcases PathRequest.ids_of_build hrequest with ⟨hfirst, hsecond⟩
    refine ⟨request, hrequest, ?_⟩
    rw [if_neg (by rw [hfirst, hsecond]; exact hne), Run.result_bind_eq_ok]
    rcases h with ⟨hnone, rfl⟩ | ⟨path, hsome, h⟩
    · exact ⟨none, hnone, rfl⟩
    · exact ⟨some path, hsome, h⟩

/-- What becomes of a path of a consistent store leads from the one person to the other. -/
theorem connects_of_connect {request : PathRequest} {path : Path} {p : StoredPath} {c : Connection}
    (hp : p.Consistent) (hpath : p.toPath = .ok path)
    (h : (s.connect request path).result = .ok c) : c.Connects request.first request.second := by
  rcases connect_eq_ok.mp h with ⟨drafted, hdrafted, hcheck, -, rfl⟩
  rcases Connection.describes_of_ofPath hdrafted with ⟨-, d, hd, rfl⟩
  have halternating : path.Alternating := by
    refine ⟨fun a ha => hd.roles_of_mem ha, ?_⟩
    intro i a b ha hb
    exact StoredPath.finish_eq_start hpath ha hb
  have hpeople : path.SamePeople := by
    intro a ha b hb m n hm hn hid k hk
    exact hp.same_int hpath ha hb hm hn hid hk
  exact (halternating.connects hd hpeople hcheck).enriched s.access s.stores

/-! ## What a search finds -/

/-- Where equal ids stand for equal nodes, a connection with steps leads from the first person to
the second, and a search gives one without steps exactly when the two differ, the request can be
built and the store knows no path. -/
theorem find_connects (s : Search) (hstore : s.database.Consistent) (first second : Int)
    (filters : Filters) :
    (∀ c, (s.find (.int first) (.int second) filters).result = .ok c → c.triples ≠ [] →
      c.Connects first second) ∧
    ((∃ c, (s.find (.int first) (.int second) filters).result = .ok c ∧ c.triples = []) ↔
      first ≠ second ∧ ∃ request,
        PathRequest.build PathRequest.nodeVariable (.int first) (.int second) filters =
          .ok request ∧
        (s.access.findPath s.database request).result = .ok none) := by
  have hconnects : ∀ request path c,
      PathRequest.build PathRequest.nodeVariable (.int first) (.int second) filters =
        .ok request →
      (s.access.findPath s.database request).result = .ok (some path) →
      (s.connect request path).result = .ok c → c.Connects first second := by
    intro request path c hrequest hfound h
    rcases Access.findPath_eq_some hstore hfound with ⟨p, hp, hpath⟩
    have hc := connects_of_connect hp hpath h
    rcases PathRequest.ids_of_build hrequest with ⟨hfirst, hsecond⟩
    rwa [hfirst, hsecond] at hc
  constructor
  · intro c hc hne
    rcases find_eq_ok.mp hc with ⟨-, request, hrequest, h⟩
    rcases h with ⟨-, rfl⟩ | ⟨path, hfound, h⟩
    · exact absurd rfl hne
    · exact hconnects request path c hrequest hfound h
  · constructor
    · rintro ⟨c, hc, hempty⟩
      rcases find_eq_ok.mp hc with ⟨hdiffer, request, hrequest, h⟩
      refine ⟨hdiffer, request, hrequest, ?_⟩
      rcases h with ⟨hnone, -⟩ | ⟨path, hfound, h⟩
      · exact hnone
      · -- A path never comes to nothing: its connection has at least two triples.
        rcases (hconnects request path c hrequest hfound h).length_eq with ⟨k, hk, hlength⟩
        rw [hempty, List.length_nil] at hlength
        omega
    · rintro ⟨hdiffer, request, hrequest, hnone⟩
      exact ⟨{}, find_eq_ok.mpr ⟨hdiffer, request, hrequest, Or.inl ⟨hnone, rfl⟩⟩, rfl⟩

/-- Two people with credits for one movie, in a store that finds them. -/
def coStars : Search where
  database := Store.database {
    path := some (.path {
      nodes := [⟨"a", [Label.person], [("person_id", .int 1)]⟩,
        ⟨"b", [Label.movie], [("movie_id", .int 7)]⟩,
        ⟨"c", [Label.person], [("person_id", .int 2)]⟩]
      relationships := [⟨"r", "CAST_FOR", "a", "b", [("character", .text "Anna")]⟩,
        ⟨"s", "CREW_FOR", "c", "b", [("department", .text "Sound")]⟩] }) }
  access := ⟨none, .null⟩
  concurrency := defaultConcurrency
  timing := .inOrder

/-- The two people of `coStars` are connected through their movie. -/
theorem find_coStars : coStars.database.Consistent ∧
    ∃ c, (coStars.find (.int 1) (.int 2) (.given .null)).result = .ok c ∧ c.triples.length = 2 ∧
      c.Connects 1 2 := by
  have hstore : coStars.database.Consistent := by
    apply Store.consistent_database
    intro p hp
    cases hp
    exact StoredPath.consistent_of_nodup (by decide)
  refine ⟨hstore, ?_⟩
  have hfind : (coStars.find (.int 1) (.int 2) (.given .null)).result = .ok {
      people := [[("person_id", .int 1)], [("person_id", .int 2)]]
      projects := [.movie [("movie_id", .int 7)]]
      triples := [⟨0, .cast [("character", .text "Anna")], 0⟩,
        ⟨1, .crew [("department", .text "Sound")], 0⟩] } := rfl
  exact ⟨_, hfind, rfl, (find_connects coStars hstore 1 2 (.given .null)).1 _ hfind (by simp)⟩

end Search

end Costar
