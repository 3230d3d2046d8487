import Costar.Proofs.Connection.Draft
import Mathlib.Data.List.Basic

/-!
# Alternation of people and projects

No check looks at more than one segment, yet along a path people and projects take turns: every
segment has one end of each kind, and the node in which it ends is the one where the next begins.
So from one person to another there is an even number of segments, and the triples of neighbouring
segments share a project and a person in turns.

Main results:

- Structure `Connection.Connects`: what makes a connection lead from one person to another.
- Theorem `Path.Alternating.isPerson_start`: the segments at even positions start at people.
- Theorem `Path.Alternating.length_mod_two`: between two people there is an even number of segments.
- Theorem `Path.Alternating.connects`: the connection of such a path leads from one to the other.
-/

namespace Costar

/-! ## The ends of a segment -/

namespace Segment

variable {s : Segment} {person project : Node}

/-- One end of a segment is its person and the other its project. -/
theorem roles?_eq_some (h : s.roles? = some (person, project)) :
    (s.start.isPerson = true ∧ s.finish.isPerson = false ∧ person = s.start ∧ project = s.finish) ∨
      (s.start.isPerson = false ∧ s.finish.isPerson = true ∧ person = s.finish ∧
        project = s.start) := by
  unfold roles? at h
  split at h
  · rename_i hstart _ hfinish _
    cases h
    exact Or.inl ⟨hstart, hfinish, rfl, rfl⟩
  · rename_i hstart _ hfinish _
    cases h
    exact Or.inr ⟨hstart, hfinish, rfl, rfl⟩
  · cases h

theorem isPerson_finish (h : s.roles? = some (person, project)) :
    s.finish.isPerson = !s.start.isPerson := by
  rcases roles?_eq_some h with ⟨hstart, hfinish, -, -⟩ | ⟨hstart, hfinish, -, -⟩ <;>
    rw [hstart, hfinish] <;> rfl

theorem roles_of_start (h : s.roles? = some (person, project)) (hs : s.start.isPerson = true) :
    person = s.start ∧ project = s.finish := by
  rcases roles?_eq_some h with ⟨-, -, hroles⟩ | ⟨hstart, -, -⟩
  · exact hroles
  · rw [hs] at hstart
    cases hstart

theorem roles_of_finish (h : s.roles? = some (person, project)) (hs : s.start.isPerson = false) :
    person = s.finish ∧ project = s.start := by
  rcases roles?_eq_some h with ⟨hstart, -, -⟩ | ⟨-, -, hroles⟩
  · rw [hs] at hstart
    cases hstart
  · exact hroles

theorem person_of_roles (h : s.roles? = some (person, project)) :
    person = s.start ∨ person = s.finish := by
  rcases roles?_eq_some h with ⟨-, -, hperson, -⟩ | ⟨-, -, hperson, -⟩
  · exact Or.inl hperson
  · exact Or.inr hperson

end Segment

/-! ## Alternating paths -/

namespace Path

/-- A path on which every segment has its roles and starts at the node where the one before it
ends. -/
structure Alternating (p : Path) : Prop where
  roles : ∀ s ∈ p, ∃ person project, s.roles? = some (person, project)
  joined : ∀ (i : Nat) (s t : Segment), p[i]? = some s → p[i + 1]? = some t → s.finish = t.start

namespace Alternating

variable {p : Path} {first last : Segment}

/-- From a person on, the segments at even positions start at people and the others at
projects. -/
theorem isPerson_start (h : p.Alternating) (hfirst : p[0]? = some first)
    (hperson : first.start.isPerson = true) {i : Nat} {s : Segment} (hs : p[i]? = some s) :
    s.start.isPerson = decide (i % 2 = 0) := by
  induction i generalizing s with
  | zero =>
      rw [hfirst] at hs
      cases hs
      rw [hperson]
      rfl
  | succ i ih =>
      have hi : i < p.length := by
        have := (List.getElem?_eq_some_iff.mp hs).1
        omega
      have hprevious : p[i]? = some p[i] := List.getElem?_eq_getElem hi
      rcases h.roles p[i] (List.getElem_mem hi) with ⟨person, project, hroles⟩
      rw [← h.joined i p[i] s hprevious hs, Segment.isPerson_finish hroles, ih hprevious,
        ← decide_not, decide_eq_decide]
      omega

/-- Between two people there is an even number of segments. -/
theorem length_mod_two (h : p.Alternating) (hfirst : p[0]? = some first)
    (hstart : first.start.isPerson = true) (hlast : p.getLast? = some last)
    (hfinish : last.finish.isPerson = true) : p.length % 2 = 0 := by
  rw [List.getLast?_eq_getElem?] at hlast
  rcases h.roles last (List.mem_of_getElem? hlast) with ⟨person, project, hroles⟩
  have hodd := h.isPerson_start hfirst hstart hlast
  rw [Segment.isPerson_finish hroles, hodd] at hfinish
  have hpos := (List.getElem?_eq_some_iff.mp hfirst).1
  have hlength : (p.length - 1) % 2 ≠ 0 := by simpa using hfinish
  omega

end Alternating

end Path

/-! ## Connections between two people -/

namespace Connection

/-- Whether a connection leads from the person of one id to the person of another: its triples come
in pairs, the two of a pair share a project, and a pair shares a person with the next. -/
structure Connects (c : Connection) (first second : Int) : Prop where
  wellFormed : c.WellFormed
  length_eq : ∃ k, 1 ≤ k ∧ c.triples.length = 2 * k
  same_project : ∀ (i : Nat) (s t : Triple), c.triples[2 * i]? = some s →
    c.triples[2 * i + 1]? = some t → s.project = t.project
  same_person : ∀ (i : Nat) (s t : Triple), c.triples[2 * i + 1]? = some s →
    c.triples[2 * i + 2]? = some t → s.person = t.person
  starts_at : ∃ t, c.triples.head? = some t ∧
    ((c.step t).person.getOrNull "person_id").same (.int first) = true
  ends_at : ∃ t, c.triples.getLast? = some t ∧
    ((c.step t).person.getOrNull "person_id").same (.int second) = true

end Connection

namespace Path

/-- A path of which every two nodes of one id are people of the same whole number. -/
def SamePeople (p : Path) : Prop :=
  ∀ s ∈ p, ∀ t ∈ p, ∀ m n : Node, (m = s.start ∨ m = s.finish) → (n = t.start ∨ n = t.finish) →
    m.id = n.id → ∀ k : Int, (Record.getOrNull n.properties "person_id").same (.int k) = true →
      (Record.getOrNull m.properties "person_id").same (.int k) = true

theorem checkEndpoints_eq_ok {p : Path} {first second : Value}
    (h : p.checkEndpoints first second = .ok ()) :
    ∃ s t, p[0]? = some s ∧ p.getLast? = some t ∧ s.start.isPersonWithId first = true ∧
      t.finish.isPersonWithId second = true := by
  unfold checkEndpoints at h
  split at h
  · rename_i s t hs ht
    split at h
    · cases h
    · rename_i hfirst
      split at h
      · cases h
      · rename_i hsecond
        rw [List.head?_eq_getElem?] at hs
        exact ⟨s, t, hs, ht, by simpa using hfirst, by simpa using hsecond⟩
  · cases h

end Path

namespace Draft.Describes

variable {d : Draft} {p : Path}

/-- The person of a triple is the one of its segment, as far as whole numbers tell. -/
theorem same_person (hd : d.Describes p) (hpeople : p.SamePeople) {s : Segment} {t : Triple}
    {person project : Node} (hs : s ∈ p) (hplaces : d.Places s t person project) {k : Int}
    (hk : (Record.getOrNull person.properties "person_id").same (.int k) = true) :
    ((d.toConnection.step t).person.getOrNull "person_id").same (.int k) = true := by
  rcases Register.getElem?_of_position? hplaces.person with ⟨r, hr⟩
  rcases hd.people _ (List.mem_of_getElem? hr) with ⟨a, ha, other, _, hroles, hid, hproperties⟩
  have hstep : (d.toConnection.step t).person = r := by
    simp [Connection.step, toConnection, hr]
  have hsame := hpeople a ha s hs other person (Segment.person_of_roles hroles)
    (Segment.person_of_roles hplaces.roles) hid k hk
  have hr' : other.properties = r := hproperties
  rw [hstep, ← hr']
  exact hsame

end Draft.Describes

namespace Path.Alternating

variable {d : Draft} {p : Path}

/-- Neighbouring triples share the part at which their segments meet. -/
theorem shares (h : p.Alternating) (hd : d.Describes p) {first : Segment}
    (hfirst : p[0]? = some first) (hstart : first.start.isPerson = true) {i : Nat} {s t : Triple}
    (hs : d.triples[i]? = some s) (ht : d.triples[i + 1]? = some t) :
    if i % 2 = 0 then s.project = t.project else s.person = t.person := by
  rcases hd.places_of_getElem? hs with ⟨a, ha, person, project, hplaces⟩
  rcases hd.places_of_getElem? ht with ⟨b, hb, person', project', hplaces'⟩
  have hjoined : a.finish = b.start := h.joined i a b ha hb
  have hpersonA := h.isPerson_start hfirst hstart ha
  have hpersonB := h.isPerson_start hfirst hstart hb
  by_cases heven : i % 2 = 0
  · rw [if_pos heven]
    obtain ⟨-, hproject⟩ := Segment.roles_of_start hplaces.roles (by rw [hpersonA, decide_eq_true_eq]; exact heven)
    obtain ⟨-, hproject'⟩ := Segment.roles_of_finish hplaces'.roles
      (by rw [hpersonB, decide_eq_false_iff_not]; omega)
    have hposition := hplaces.project
    rw [hproject, hjoined, ← hproject', hplaces'.project] at hposition
    exact (Option.some.inj hposition).symm
  · rw [if_neg heven]
    obtain ⟨hperson, -⟩ := Segment.roles_of_finish hplaces.roles (by rw [hpersonA, decide_eq_false_iff_not]; exact heven)
    obtain ⟨hperson', -⟩ := Segment.roles_of_start hplaces'.roles
      (by rw [hpersonB, decide_eq_true_eq]; omega)
    have hposition := hplaces.person
    rw [hperson, hjoined, ← hperson', hplaces'.person] at hposition
    exact (Option.some.inj hposition).symm

/-- The connection of an alternating path whose ends have been checked leads from the one person
to the other. -/
theorem connects (h : p.Alternating) (hd : d.Describes p) (hpeople : p.SamePeople)
    {first second : Int} (hcheck : p.checkEndpoints (.int first) (.int second) = .ok ()) :
    d.toConnection.Connects first second := by
  rcases checkEndpoints_eq_ok hcheck with ⟨a, b, ha, hb, hfirst, hsecond⟩
  simp only [Node.isPersonWithId, Bool.and_eq_true] at hfirst hsecond
  have hlength : d.triples.length = p.length := hd.triples.length_eq.symm
  have heven := h.length_mod_two ha hfirst.1 hb hsecond.1
  have hpos := (List.getElem?_eq_some_iff.mp ha).1
  refine ⟨hd.wellFormed, ⟨p.length / 2, by omega, ?_⟩, ?_, ?_, ?_, ?_⟩
  · change d.triples.length = _
    omega
  · intro i s t hs ht
    have hshares := h.shares hd ha hfirst.1 hs ht
    rwa [if_pos (by omega)] at hshares
  · intro i s t hs ht
    have hshares := h.shares hd ha hfirst.1 hs ht
    rwa [if_neg (by omega)] at hshares
  · have ht : d.triples[0]? = some d.triples[0] := List.getElem?_eq_getElem (by omega)
    rcases hd.places_of_getElem? ht with ⟨s, hs, person, project, hplaces⟩
    rw [ha] at hs
    cases hs
    rcases Segment.roles_of_start hplaces.roles hfirst.1 with ⟨rfl, -⟩
    refine ⟨d.triples[0], ?_, hd.same_person hpeople (List.mem_of_getElem? ha) hplaces hfirst.2⟩
    rw [List.head?_eq_getElem?]
    exact ht
  · have ht : d.triples[p.length - 1]? = some d.triples[p.length - 1] :=
      List.getElem?_eq_getElem (by omega)
    rcases hd.places_of_getElem? ht with ⟨s, hs, person, project, hplaces⟩
    rw [List.getLast?_eq_getElem?] at hb
    rw [hb] at hs
    cases hs
    have hstart : b.start.isPerson = false := by
      rw [h.isPerson_start ha hfirst.1 hb, decide_eq_false_iff_not]
      omega
    rcases Segment.roles_of_finish hplaces.roles hstart with ⟨rfl, -⟩
    refine ⟨d.triples[p.length - 1], ?_,
      hd.same_person hpeople (List.mem_of_getElem? hb) hplaces hsecond.2⟩
    rw [List.getLast?_eq_getElem?]
    have hindex : d.toConnection.triples.length - 1 = p.length - 1 := by
      change d.triples.length - 1 = p.length - 1
      omega
    rw [hindex]
    exact ht

end Path.Alternating

end Costar
