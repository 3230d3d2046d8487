import Costar.Connection.OfPath
import Mathlib.Data.List.Forall2

/-!
# Drafts of connections

The triples of a draft are made segment by segment.  The invariant says that each triple stands for
its segment: it refers to the entries that the ids of the segment's person and project have, and an
entry keeps its position however many more are made.

Main results:

- Theorem `Register.enroll_eq_ok`: an id is enrolled at its position, and old entries stay.
- Theorem `Register.enroll_cases`: when an entry is made, and where it stands.
- Structure `Draft.Describes`: what holds of a draft after some segments.
- Theorem `Draft.Describes.add`: adding a segment keeps it.
- Theorem `Connection.describes_of_ofPath`: it holds of the connection of a path.
-/

namespace Costar

/-! ## Registers -/

namespace Register

variable {α : Type} {r e : Register α} {id : String} {i : Nat}

/-- The position of the entry of an id. -/
def position? (r : Register α) (id : String) : Option Nat :=
  r.findIdx? (·.1 == id)

theorem getElem?_of_position? (h : r.position? id = some i) : ∃ a, r[i]? = some (id, a) := by
  rcases List.findIdx?_eq_some_iff_getElem.mp h with ⟨hi, hid, -⟩
  refine ⟨r[i].2, ?_⟩
  rw [List.getElem?_eq_getElem hi]
  have hfst : r[i].1 = id := by simpa using hid
  rw [← hfst]

theorem mem_of_position? (h : r.position? id = some i) : id ∈ r.map (·.1) := by
  rcases getElem?_of_position? h with ⟨a, ha⟩
  exact List.mem_map_of_mem (List.mem_of_getElem? ha)

/-- An id has no position when it has no entry. -/
theorem not_mem_of_position? (h : r.position? id = none) : id ∉ r.map (·.1) := by
  intro hmem
  rcases List.mem_map.mp hmem with ⟨x, hx, hid⟩
  simpa [hid] using List.findIdx?_eq_none_iff.mp h x hx

/-- Entries that are made later do not move an entry. -/
theorem position?_append (new : Register α) (h : r.position? id = some i) :
    (r ++ new).position? id = some i := by
  unfold position? at h ⊢
  rw [List.findIdx?_append, h]
  rfl

theorem position?_append_singleton (a : α) (h : r.position? id = none) :
    (r ++ [(id, a)]).position? id = some r.length := by
  unfold position? at h ⊢
  rw [List.findIdx?_append, h]
  simp

/-- An id is enrolled at its position; the old entries stay where they are, and a new one is for the
id. -/
theorem enroll_eq_ok {make : Except Failure α} (h : r.enroll id make = .ok (e, i)) :
    e.position? id = some i ∧
      ∃ new : Register α, e = r ++ new ∧ ∀ x ∈ new, x.1 = id ∧ make = .ok x.2 := by
  unfold enroll at h
  split at h
  · rename_i j hj
    cases h
    refine ⟨hj, [], (List.append_nil r).symm, ?_⟩
    intro x hx
    cases hx
  · rename_i hnone
    cases make with
    | error f => cases h
    | ok a =>
        cases h
        refine ⟨position?_append_singleton a hnone, [(id, a)], rfl, ?_⟩
        intro x hx
        rw [List.mem_singleton] at hx
        subst hx
        exact ⟨rfl, rfl⟩

/-- An id that has an entry already is found, and for any other an entry is made at the end. -/
theorem enroll_cases {make : Except Failure α} (h : r.enroll id make = .ok (e, i)) :
    (id ∈ r.map (·.1) ∧ i < r.length ∧ e = r) ∨
      (id ∉ r.map (·.1) ∧ i = r.length ∧ ∃ a, make = .ok a ∧ e = r ++ [(id, a)]) := by
  unfold enroll at h
  split at h
  · rename_i j hj
    cases h
    rcases getElem?_of_position? hj with ⟨a, ha⟩
    exact Or.inl ⟨mem_of_position? hj, (List.getElem?_eq_some_iff.mp ha).1, rfl⟩
  · rename_i hnone
    cases make with
    | error f => cases h
    | ok a =>
        cases h
        exact Or.inr ⟨not_mem_of_position? hnone, rfl, a, rfl, rfl⟩

/-- Only an id without an entry fails to be enrolled. -/
theorem enroll_eq_error {make : Except Failure α} {f : Failure} :
    r.enroll id make = .error f ↔ id ∉ r.map (·.1) ∧ make = .error f := by
  unfold enroll
  split
  · rename_i j hj
    have hmem : id ∈ r.map (·.1) := mem_of_position? hj
    simp [hmem]
  · rename_i hnone
    have hnew : id ∉ r.map (·.1) := not_mem_of_position? hnone
    cases make <;> simp [hnew, Except.map]

theorem exists_enroll {make : Except Failure α}
    (h : id ∈ r.map (·.1) ∨ ∃ a, make = .ok a) : ∃ x, r.enroll id make = .ok x := by
  cases hresult : r.enroll id make with
  | ok x => exact ⟨x, rfl⟩
  | error f =>
      rcases enroll_eq_error.mp hresult with ⟨hnew, hmake⟩
      rcases h with hmem | ⟨a, ha⟩
      · exact absurd hmem hnew
      · rw [ha] at hmake
        cases hmake

end Register

/-! ## The invariant of a draft -/

namespace Draft

/-- Whether a triple of a draft stands for a segment. -/
structure Places (d : Draft) (s : Segment) (t : Triple) (person project : Node) : Prop where
  roles : s.roles? = some (person, project)
  person : d.people.position? person.id = some t.person
  project : d.projects.position? project.id = some t.project
  credit : Credit.ofRecord s.relationship.properties = .ok t.credit

/-- What holds of a draft after some segments: its triples stand for them, and its people and
projects are the nodes of theirs. -/
structure Describes (d : Draft) (segments : List Segment) : Prop where
  triples : List.Forall₂ (fun s t => ∃ person project, d.Places s t person project)
    segments d.triples
  people : ∀ e ∈ d.people, ∃ s ∈ segments, ∃ person project,
    s.roles? = some (person, project) ∧ person.id = e.1 ∧ person.properties = e.2
  projects : ∀ e ∈ d.projects, ∃ s ∈ segments, ∃ person project,
    s.roles? = some (person, project) ∧ project.id = e.1 ∧
      Project.ofRecord project.properties = .ok e.2

variable {d e : Draft} {segments : List Segment}

theorem describes_empty : Describes {} [] where
  triples := List.Forall₂.nil
  people := by
    intro e he
    cases he
  projects := by
    intro e he
    cases he

theorem roles?_of_split {index : Int} {s : Segment} {roles : Node × Node}
    (h : s.split index = .ok roles) : s.roles? = some roles := by
  unfold Segment.split at h
  split at h
  · cases h
  · rename_i found hfound
    split at h
    · cases h
    · split at h
      · cases h
      · cases h
        exact hfound

/-- Adding a segment keeps the invariant. -/
theorem Describes.add {index : Nat} {previous : Option Segment} {s : Segment}
    (hd : d.Describes segments) (h : d.add index previous s = .ok e) :
    e.Describes (segments ++ [s]) := by
  simp only [Draft.add, Failure.bind_eq_ok] at h
  obtain ⟨-, -, ⟨person, project⟩, hsplit, ⟨people, i⟩, hpeople, ⟨projects, j⟩, hprojects, credit,
    hcredit, he⟩ := h
  cases he
  have hroles := roles?_of_split hsplit
  rcases Register.enroll_eq_ok hpeople with ⟨hi, newPeople, rfl, hnewPeople⟩
  rcases Register.enroll_eq_ok hprojects with ⟨hj, newProjects, rfl, hnewProjects⟩
  constructor
  · refine List.rel_append (hd.triples.imp ?_) (List.Forall₂.cons ?_ List.Forall₂.nil)
    · rintro a t ⟨p, q, ht⟩
      exact ⟨p, q, ht.roles, Register.position?_append newPeople ht.person,
        Register.position?_append newProjects ht.project, ht.credit⟩
    · exact ⟨person, project, hroles, hi, hj, hcredit⟩
  · intro x hx
    rcases List.mem_append.mp hx with hx | hx
    · rcases hd.people x hx with ⟨a, ha, hentry⟩
      exact ⟨a, List.mem_append_left _ ha, hentry⟩
    · rcases hnewPeople x hx with ⟨hid, hmake⟩
      have hproperties : person.properties = x.2 := by injection hmake
      exact ⟨s, List.mem_append_right _ List.mem_cons_self, person, project, hroles, hid.symm,
        hproperties⟩
  · intro x hx
    rcases List.mem_append.mp hx with hx | hx
    · rcases hd.projects x hx with ⟨a, ha, hentry⟩
      exact ⟨a, List.mem_append_left _ ha, hentry⟩
    · rcases hnewProjects x hx with ⟨hid, hmake⟩
      exact ⟨s, List.mem_append_right _ List.mem_cons_self, person, project, hroles, hid.symm,
        hmake⟩

/-- The last segment of a list is added behind the others. -/
theorem addAll_concat (d : Draft) (index : Nat) (previous : Option Segment) (rest : List Segment)
    (s : Segment) :
    d.addAll index previous (rest ++ [s]) = (do
      let e ← d.addAll index previous rest
      e.add (index + rest.length) (rest.getLast?.or previous) s) := by
  induction rest generalizing d index previous with
  | nil =>
      change (d.add index previous s >>= fun e => .ok e) = d.add index previous s
      cases d.add index previous s <;> rfl
  | cons t rest ih =>
      have hlast : (t :: rest).getLast?.or previous = rest.getLast?.or (some t) := by
        rw [List.getLast?_cons]
        cases rest.getLast? <;> rfl
      rw [List.cons_append, addAll, addAll, bind_assoc, hlast]
      refine congrArg _ (funext fun e => ?_)
      rw [ih, List.length_cons, Nat.add_right_comm, Nat.add_assoc]

/-- What adding a segment keeps, adding all segments of a list keeps. -/
theorem addAll_induction {motive : Draft → List Segment → Prop}
    (hstep : ∀ {d e : Draft} {segments : List Segment} {index : Nat} {previous : Option Segment}
      {s : Segment}, motive d segments → d.add index previous s = .ok e →
        motive e (segments ++ [s]))
    {index : Nat} {previous : Option Segment} {rest : List Segment} (hd : motive d segments)
    (h : d.addAll index previous rest = .ok e) : motive e (segments ++ rest) := by
  induction rest generalizing d segments index previous with
  | nil =>
      cases h
      rw [List.append_nil]
      exact hd
  | cons s rest ih =>
      simp only [Draft.addAll, Failure.bind_eq_ok] at h
      rcases h with ⟨f, hf, h⟩
      have hrest := ih (hstep hd hf) h
      rwa [List.append_assoc] at hrest

/-- Adding all segments of a list keeps the invariant. -/
theorem Describes.addAll {index : Nat} {previous : Option Segment} {rest : List Segment}
    (hd : d.Describes segments) (h : d.addAll index previous rest = .ok e) :
    e.Describes (segments ++ rest) :=
  addAll_induction Describes.add hd h

/-! ## Segments and triples -/

namespace Describes

/-- The triple at a position stands for the segment there. -/
theorem places_of_getElem? (hd : d.Describes segments) {i : Nat} {t : Triple}
    (ht : d.triples[i]? = some t) :
    ∃ s, segments[i]? = some s ∧ ∃ person project, d.Places s t person project := by
  rcases List.forall₂_iff_get.mp hd.triples with ⟨hlength, hget⟩
  rcases List.getElem?_eq_some_iff.mp ht with ⟨hi, rfl⟩
  have hs : i < segments.length := by omega
  exact ⟨segments[i], List.getElem?_eq_getElem hs, hget i hs hi⟩

/-- For every segment there is a triple. -/
theorem places_of_mem (hd : d.Describes segments) {s : Segment} (hs : s ∈ segments) :
    ∃ t ∈ d.triples, ∃ person project, d.Places s t person project := by
  rcases List.forall₂_iff_get.mp hd.triples with ⟨hlength, hget⟩
  rcases List.getElem_of_mem hs with ⟨i, hi, rfl⟩
  have ht : i < d.triples.length := by omega
  exact ⟨d.triples[i], List.getElem_mem ht, hget i hi ht⟩

theorem roles_of_mem (hd : d.Describes segments) {s : Segment} (hs : s ∈ segments) :
    ∃ person project, s.roles? = some (person, project) := by
  rcases hd.places_of_mem hs with ⟨t, -, person, project, hplaces⟩
  exact ⟨person, project, hplaces.roles⟩

theorem wellFormed (hd : d.Describes segments) : d.toConnection.WellFormed := by
  intro t ht
  rcases List.getElem?_of_mem ht with ⟨i, hi⟩
  rcases hd.places_of_getElem? hi with ⟨s, -, person, project, hplaces⟩
  rcases Register.getElem?_of_position? hplaces.person with ⟨r, hr⟩
  rcases Register.getElem?_of_position? hplaces.project with ⟨q, hq⟩
  have hperson := (List.getElem?_eq_some_iff.mp hr).1
  have hproject := (List.getElem?_eq_some_iff.mp hq).1
  exact ⟨by simpa [toConnection] using hperson, by simpa [toConnection] using hproject⟩

end Describes

end Draft

namespace Connection

/-- The connection of a path is what has become of a draft of its segments. -/
theorem ofPath_eq_ok {path : Path} {c : Connection} (h : ofPath path = .ok c) :
    path ≠ [] ∧ ∃ d, Draft.addAll {} 0 none path = .ok d ∧ c = d.toConnection := by
  unfold ofPath at h
  split at h
  · cases h
  · rename_i hne
    refine ⟨hne, ?_⟩
    cases hd : Draft.addAll {} 0 none path with
    | error f =>
        rw [hd] at h
        cases h
    | ok d =>
        rw [hd] at h
        cases h
        exact ⟨d, rfl, rfl⟩

/-- The triples of the connection of a path stand for its segments. -/
theorem describes_of_ofPath {path : Path} {c : Connection} (h : ofPath path = .ok c) :
    path ≠ [] ∧ ∃ d : Draft, d.Describes path ∧ c = d.toConnection := by
  rcases ofPath_eq_ok h with ⟨hne, d, hd, hc⟩
  exact ⟨hne, d, Draft.describes_empty.addAll hd, hc⟩

end Connection

end Costar
