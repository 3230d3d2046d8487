import Costar.Proofs.Connection.Acceptance
import Costar.Proofs.Connection.Distinct

/-!
# What the triples of a path share

The connection of a path has one triple for each segment.  Its credit is that of the segment; its
person and its project are made of the first node along the path that has the same id in the same
role.  So two triples share a person exactly when the people of their segments have the same id, and
the same goes for projects: nothing that should be shared is kept apart, and nothing else is shared.

Main results:

- Theorem `Register.position?_eq_iff`: two ids have the same position only if they are the same.
- Structure `Connection.Stands`: what a triple that stands for a segment consists of.
- Theorem `Draft.Describes.stands`: the triples of a draft stand for its segments.
- Structure `Connection.Mirrors`: the triples of a connection stand for the segments of a path, and
  share what these have in common.
- Theorem `Connection.mirrors_of_ofPath`: the connection of a path mirrors it.
-/

namespace Costar

/-- Entries at the same position are the same, hence entries of the same id. -/
theorem Register.position?_eq_iff {α : Type} {r : Register α} {id id' : String} {i j : Nat}
    (h : r.position? id = some i) (h' : r.position? id' = some j) : i = j ↔ id = id' := by
  constructor
  · rintro rfl
    rcases getElem?_of_position? h with ⟨a, ha⟩
    rcases getElem?_of_position? h' with ⟨b, hb⟩
    rw [ha] at hb
    cases hb
    rfl
  · rintro rfl
    rw [h] at h'
    exact Option.some.inj h'

/-! ## Projects and credits of records -/

theorem Project.properties_of_ofRecord {r : Record} {project : Project}
    (h : ofRecord r = .ok project) : project.properties = r := by
  unfold ofRecord at h
  split at h
  · cases h
    rfl
  · split at h
    · cases h
      rfl
    · cases h

/-- A record describes an acting credit if it names a character, or else a credit in the crew if it
names a department. -/
theorem Credit.ofRecord_eq_ok {r : Record} {credit : Credit} :
    ofRecord r = .ok credit ↔
      r.populates "character" = true ∧ credit = .cast r ∨
        r.populates "character" = false ∧ r.populates "department" = true ∧ credit = .crew r := by
  unfold ofRecord
  cases r.populates "character" <;> cases r.populates "department" <;> simp [eq_comm]

/-! ## Triples -/

namespace Connection

/-- Whether a triple stands for a segment of a path: its credit is that of the segment's
relationship, and its person and project are made of the first nodes along the path that have the
ids of the segment's person and project in the same roles. -/
structure Stands (c : Connection) (p : Path) (s : Segment) (t : Triple) (person project : Node) :
    Prop where
  roles : s.HasRoles person project
  credit :
    s.relationship.properties.populates "character" = true ∧
        t.credit = .cast s.relationship.properties ∨
      s.relationship.properties.populates "character" = false ∧
        s.relationship.properties.populates "department" = true ∧
        t.credit = .crew s.relationship.properties
  person : ∃ n, p.people.find? (·.id == person.id) = some n ∧
    c.people[t.person]? = some n.properties
  project : ∃ n q, p.projects.find? (·.id == project.id) = some n ∧
    Project.ofRecord n.properties = .ok q ∧ q.properties = n.properties ∧
    c.projects[t.project]? = some q

/-- Whether the triples of a connection stand for the segments of a path, one for each in their
order, and share a person or a project exactly where the nodes of the segments have the same id. -/
structure Mirrors (c : Connection) (p : Path) : Prop where
  length : c.triples.length = p.length
  stands : ∀ {i : Nat} {s : Segment} {t : Triple}, p[i]? = some s → c.triples[i]? = some t →
    ∃ person project, c.Stands p s t person project
  samePerson : ∀ {i j : Nat} {s s' : Segment} {t t' : Triple} {m n q r : Node},
    p[i]? = some s → p[j]? = some s' → c.triples[i]? = some t → c.triples[j]? = some t' →
      s.HasRoles m q → s'.HasRoles n r → (t.person = t'.person ↔ m.id = n.id)
  sameProject : ∀ {i j : Nat} {s s' : Segment} {t t' : Triple} {m n q r : Node},
    p[i]? = some s → p[j]? = some s' → c.triples[i]? = some t → c.triples[j]? = some t' →
      s.HasRoles m q → s'.HasRoles n r → (t.project = t'.project ↔ q.id = r.id)

end Connection

namespace Draft

variable {d : Draft} {p : Path} {s : Segment} {t : Triple} {person project : Node}

theorem person_of_position? (hpeople : d.RecordsPeople p) {id : String} {i : Nat}
    (hi : d.people.position? id = some i) :
    ∃ n, p.people.find? (·.id == id) = some n ∧ d.toConnection.people[i]? = some n.properties := by
  rcases Register.getElem?_of_position? hi with ⟨a, ha⟩
  rcases Register.Records.exists_find? hpeople ha with ⟨n, hn, hmake⟩
  have hproperties : n.properties = a := by injection hmake
  refine ⟨n, hn, ?_⟩
  rw [toConnection, List.getElem?_map, ha, hproperties]
  rfl

theorem project_of_position? (hprojects : d.Collects p) {id : String} {i : Nat}
    (hi : d.projects.position? id = some i) :
    ∃ n q, p.projects.find? (·.id == id) = some n ∧ Project.ofRecord n.properties = .ok q ∧
      q.properties = n.properties ∧ d.toConnection.projects[i]? = some q := by
  rcases Register.getElem?_of_position? hi with ⟨q, hq⟩
  rcases Register.Records.exists_find? hprojects.projects hq with ⟨n, hn, hmake⟩
  refine ⟨n, q, hn, hmake, Project.properties_of_ofRecord hmake, ?_⟩
  rw [toConnection, List.getElem?_map, hq]
  rfl

/-- The triple of a segment stands for it. -/
theorem Places.stands (hpeople : d.RecordsPeople p) (hprojects : d.Collects p)
    (h : d.Places s t person project) : d.toConnection.Stands p s t person project where
  roles := Segment.roles?_eq_some_iff.mp h.roles
  credit := Credit.ofRecord_eq_ok.mp h.credit
  person := person_of_position? hpeople h.person
  project := project_of_position? hprojects h.project

/-- The triple at a position has the places of the ids in the segment there. -/
theorem Describes.places_of_roles (hd : d.Describes p) {i : Nat} (hs : p[i]? = some s)
    (ht : d.triples[i]? = some t) (hroles : s.HasRoles person project) :
    d.Places s t person project := by
  rcases hd.places_of_getElem? ht with ⟨s', hs', person', project', hplaces⟩
  rw [hs] at hs'
  cases hs'
  rcases hroles.unique (Segment.roles?_eq_some_iff.mp hplaces.roles) with ⟨rfl, rfl⟩
  exact hplaces

end Draft

namespace Connection

/-- The connection of a path mirrors it. -/
theorem mirrors_of_ofPath {p : Path} {c : Connection} (h : ofPath p = .ok c) : c.Mirrors p := by
  rcases ofPath_eq_ok h with ⟨-, d, hd, rfl⟩
  have hdescribes : d.Describes p := Draft.describes_empty.addAll hd
  have hpeople : d.RecordsPeople p := Draft.recordsPeople_of_addAll hd
  have hprojects : d.Collects p := Draft.collects_empty.addAll hd
  constructor
  case length => exact hdescribes.triples.length_eq.symm
  case stands =>
    intro i s t hs ht
    rcases hdescribes.places_of_getElem? ht with ⟨s', hs', person, project, hplaces⟩
    rw [hs] at hs'
    cases hs'
    exact ⟨person, project, hplaces.stands hpeople hprojects⟩
  case samePerson =>
    intro i j s s' t t' m n q r hs hs' ht ht' hroles hroles'
    exact Register.position?_eq_iff (hdescribes.places_of_roles hs ht hroles).person
      (hdescribes.places_of_roles hs' ht' hroles').person
  case sameProject =>
    intro i j s s' t t' m n q r hs hs' ht ht' hroles hroles'
    exact Register.position?_eq_iff (hdescribes.places_of_roles hs ht hroles).project
      (hdescribes.places_of_roles hs' ht' hroles').project

/-- A path through a movie that is described only where it first stands. -/
def throughMovie : Path :=
  [⟨⟨"a", [Label.person], [("person_id", .int 1)]⟩,
      ⟨"r", "CAST_FOR", "a", "b", [("character", .text "Anna")]⟩,
      ⟨"b", [Label.movie], [("movie_id", .int 7)]⟩⟩,
    ⟨⟨"b", [Label.movie], []⟩,
      ⟨"s", "CREW_FOR", "c", "b", [("department", .text "Sound")]⟩,
      ⟨"c", [Label.person], [("person_id", .int 2)]⟩⟩]

/-- The triples of `throughMovie` share the movie. -/
theorem mirrors_throughMovie :
    ∃ c, ofPath throughMovie = .ok c ∧ c.Mirrors throughMovie ∧
      c.projects = [.movie [("movie_id", .int 7)]] ∧ c.triples.map (·.project) = [0, 0] ∧
      c.triples.map (·.person) = [0, 1] := by
  obtain ⟨c, hc, hprojects, htriples⟩ : ∃ c, ofPath throughMovie = .ok c ∧
      c.projects = [.movie [("movie_id", .int 7)]] ∧
      c.triples.map (·.project) = [0, 0] ∧ c.triples.map (·.person) = [0, 1] :=
    ⟨_, rfl, rfl, rfl, rfl⟩
  exact ⟨c, hc, mirrors_of_ofPath hc, hprojects, htriples⟩

end Connection

end Costar
