import Costar.Proofs.Connection.Draft
import Mathlib.Data.List.Induction

/-!
# Distinct people and projects

The people and the projects of a draft are the person nodes and the project nodes of its segments,
each id once, in the order in which they first appear.  An entry is made of the first node that has
its id, and the nodes that follow with the same id change nothing.

Main results:

- Definition `Node.distinct`: the first of each id among some nodes.
- Definition `Register.Records`: a register whose entries are made of these.
- Theorem `Register.Records.enroll`: enrolling a node keeps it.
- Theorem `Register.Records.exists_find?`: an entry is made of the first node that has its id.
- Definitions `Path.people` and `Path.projects`: the nodes of a path by their roles.
- Theorem `Draft.recordsPeople_of_addAll`: the people of a draft are the distinct person nodes.
- Structure `Draft.Collects`: the projects of a draft, which the triples refer to in their order.
-/

namespace Costar

/-! ## Nodes of distinct ids -/

namespace Node

/-- The first node of each id, in order. -/
def distinct : List Node → List Node
  | [] => []
  | n :: rest => n :: (distinct rest).filter (·.id != n.id)

/-- A node behind others is distinct from them if its id is new. -/
theorem distinct_concat (ns : List Node) (n : Node) :
    distinct (ns ++ [n]) = distinct ns ++ if n.id ∈ ns.map (·.id) then [] else [n] := by
  induction ns with
  | nil => rfl
  | cons m rest ih =>
      rw [List.cons_append, distinct, ih, List.filter_append, distinct, List.cons_append]
      refine congrArg _ (congrArg _ ?_)
      by_cases hm : n.id = m.id
      · simp [hm]
      · by_cases hrest : n.id ∈ rest.map (·.id) <;> simp [hm, hrest]

theorem mem_ids_distinct {ns : List Node} {id : String} :
    id ∈ (distinct ns).map (·.id) ↔ id ∈ ns.map (·.id) := by
  induction ns using List.reverseRecOn with
  | nil => rfl
  | append_singleton ns n ih =>
      rw [distinct_concat, List.map_append, List.map_append, List.mem_append, List.mem_append, ih]
      split
      · rename_i hmem
        simp only [List.map_nil, List.not_mem_nil, or_false, List.map_cons, List.mem_singleton]
        constructor
        · exact Or.inl
        · rintro (hid | rfl)
          · exact hid
          · exact hmem
      · rfl

/-- A node that is distinct among others is the first of them with its id. -/
theorem find?_of_mem_distinct {ns : List Node} {n : Node} (h : n ∈ distinct ns) :
    ns.find? (·.id == n.id) = some n := by
  induction ns with
  | nil => cases h
  | cons m rest ih =>
      rcases List.mem_cons.mp h with rfl | hrest
      · exact List.find?_cons_of_pos (beq_self_eq_true n.id)
      · rcases List.mem_filter.mp hrest with ⟨hmem, hne⟩
        refine (List.find?_cons_of_neg ?_).trans (ih hmem)
        rw [beq_iff_eq]
        intro hid
        simp [hid] at hne

end Node

/-! ## Registers of nodes -/

namespace Register

variable {α : Type} {r e : Register α} {make : Node → Except Failure α} {ns : List Node}

/-- Whether the entries of a register are made of the first of each id among some nodes, in their
order. -/
def Records (r : Register α) (make : Node → Except Failure α) (ns : List Node) : Prop :=
  List.Forall₂ (fun n x => n.id = x.1 ∧ make n = .ok x.2) (Node.distinct ns) r

/-- The ids of the entries are those of the nodes. -/
theorem Records.mem_ids (h : r.Records make ns) {id : String} :
    id ∈ r.map (·.1) ↔ id ∈ ns.map (·.id) := by
  have hids : (Node.distinct ns).map (·.id) = r.map (·.1) := by
    unfold Records at h
    generalize Node.distinct ns = nodes at h
    induction h with
    | nil => rfl
    | cons hentry _ ih => rw [List.map_cons, List.map_cons, hentry.1, ih]
  rw [← hids, Node.mem_ids_distinct]

/-- Enrolling a node behind others keeps it so that entries are made of first nodes. -/
theorem Records.enroll {n : Node} {i : Nat} (h : r.Records make ns)
    (hr : r.enroll n.id (make n) = .ok (e, i)) : e.Records make (ns ++ [n]) := by
  unfold Records
  rw [Node.distinct_concat]
  rcases enroll_cases hr with ⟨hknown, -, rfl⟩ | ⟨hnew, -, a, ha, rfl⟩
  · rw [if_pos (h.mem_ids.mp hknown), List.append_nil]
    exact h
  · rw [if_neg (mt h.mem_ids.mpr hnew)]
    exact List.rel_append h (List.Forall₂.cons ⟨rfl, ha⟩ List.Forall₂.nil)

/-- An entry is made of the first node that has its id. -/
theorem Records.exists_find? (h : r.Records make ns) {i : Nat} {id : String} {a : α}
    (hi : r[i]? = some (id, a)) : ∃ n, ns.find? (·.id == id) = some n ∧ make n = .ok a := by
  rcases List.forall₂_iff_get.mp h with ⟨hlength, hget⟩
  rcases List.getElem?_eq_some_iff.mp hi with ⟨hlt, hentry⟩
  have hn : i < (Node.distinct ns).length := by omega
  have hmade := hget i hn hlt
  rw [List.get_eq_getElem, List.get_eq_getElem, hentry] at hmade
  have hid : (Node.distinct ns)[i].id = id := hmade.1
  refine ⟨(Node.distinct ns)[i], ?_, hmade.2⟩
  rw [← hid]
  exact Node.find?_of_mem_distinct (List.getElem_mem hn)

end Register

/-! ## People and projects along a path -/

namespace Path

/-- The person nodes of a path, segment by segment. -/
def people (p : Path) : List Node :=
  p.filterMap fun s => s.roles?.map (·.1)

/-- The project nodes of a path, segment by segment. -/
def projects (p : Path) : List Node :=
  p.filterMap fun s => s.roles?.map (·.2)

theorem people_concat {p : Path} {s : Segment} {person project : Node}
    (h : s.roles? = some (person, project)) : people (p ++ [s]) = people p ++ [person] := by
  unfold people
  rw [List.filterMap_append]
  simp [h]

theorem projects_concat {p : Path} {s : Segment} {person project : Node}
    (h : s.roles? = some (person, project)) : projects (p ++ [s]) = projects p ++ [project] := by
  unfold projects
  rw [List.filterMap_append]
  simp [h]

end Path

namespace Draft

/-- Whether the people of a draft are the distinct person nodes of some segments. -/
def RecordsPeople (d : Draft) (segments : List Segment) : Prop :=
  d.people.Records (fun n => .ok n.properties) (Path.people segments)

theorem recordsPeople_empty : RecordsPeople {} [] :=
  List.Forall₂.nil

/-- Adding a segment keeps it so. -/
theorem RecordsPeople.add {d e : Draft} {segments : List Segment} {index : Nat}
    {previous : Option Segment} {s : Segment} (hd : d.RecordsPeople segments)
    (h : d.add index previous s = .ok e) : e.RecordsPeople (segments ++ [s]) := by
  simp only [Draft.add, Failure.bind_eq_ok] at h
  obtain ⟨-, -, ⟨person, project⟩, hsplit, ⟨people, i⟩, hpeople, ⟨projects, j⟩, -, credit, -,
    he⟩ := h
  cases he
  unfold RecordsPeople
  rw [Path.people_concat (roles?_of_split hsplit)]
  exact Register.Records.enroll hd hpeople

/-- The people of the draft of a path are its distinct person nodes. -/
theorem recordsPeople_of_addAll {p : Path} {d : Draft} (h : Draft.addAll {} 0 none p = .ok d) :
    d.RecordsPeople p :=
  addAll_induction RecordsPeople.add recordsPeople_empty h

/-! ## The projects of a draft -/

/-- What the projects of a draft are after some segments: those of the distinct project nodes, all
referred to by the triples, in the order in which the triples first do so. -/
structure Collects (d : Draft) (segments : List Segment) : Prop where
  projects : List.Forall₂ (fun n e => n.id = e.1 ∧ Project.ofRecord n.properties = .ok e.2)
    (Node.distinct (Path.projects segments)) d.projects
  referred : (d.triples.map (·.project)).eraseDups = List.range d.projects.length

variable {d e : Draft} {segments : List Segment}

theorem collects_empty : Collects {} [] where
  projects := List.Forall₂.nil
  referred := rfl

theorem eraseDups_concat (l : List Nat) (i : Nat) :
    (l ++ [i]).eraseDups = l.eraseDups ++ if i ∈ l then [] else [i] := by
  rw [List.eraseDups_append]
  by_cases hi : i ∈ l <;> simp [List.removeAll, hi, List.eraseDups_cons]

/-- Adding a segment keeps the invariant. -/
theorem Collects.add {index : Nat} {previous : Option Segment} {s : Segment}
    (hd : d.Collects segments) (h : d.add index previous s = .ok e) :
    e.Collects (segments ++ [s]) := by
  simp only [Draft.add, Failure.bind_eq_ok] at h
  obtain ⟨-, -, ⟨person, project⟩, hsplit, ⟨people, i⟩, -, ⟨projects, j⟩, hprojects, credit, -,
    he⟩ := h
  cases he
  have hrefs : ∀ k, k ∈ d.triples.map (·.project) ↔ k < d.projects.length := by
    intro k
    rw [← List.mem_eraseDups, hd.referred, List.mem_range]
  constructor
  · rw [Path.projects_concat (roles?_of_split hsplit)]
    exact Register.Records.enroll hd.projects hprojects
  · rcases Register.enroll_cases hprojects with ⟨-, hj, rfl⟩ | ⟨-, rfl, a, -, rfl⟩
    · rw [List.map_append, List.map_singleton, eraseDups_concat, if_pos ((hrefs j).mpr hj),
        List.append_nil]
      exact hd.referred
    · have hfresh : d.projects.length ∉ d.triples.map (·.project) := by
        rw [hrefs]
        exact Nat.lt_irrefl _
      rw [List.map_append, List.map_singleton, eraseDups_concat, if_neg hfresh, hd.referred,
        List.length_append, List.length_singleton, List.range_succ]

/-- Adding all segments of a list keeps the invariant. -/
theorem Collects.addAll {index : Nat} {previous : Option Segment} {rest : List Segment}
    (hd : d.Collects segments) (h : d.addAll index previous rest = .ok e) :
    e.Collects (segments ++ rest) :=
  addAll_induction Collects.add hd h

end Draft

end Costar
