import Costar.Proofs.Connection.Draft
import Costar.Proofs.Failure
import Mathlib.Data.List.Induction
import Mathlib.Data.Set.Insert

/-!
# Paths that are accepted

A path is checked segment by segment, and every segment by the same checks in the same order.  The
fields of a project are looked at only where its id appears for the first time, so one of the checks
depends on the segments before.  A path is accepted when every segment passes every check; otherwise
it fails by the first check that fails, of the first segment that fails one.

Main results:

- Structure `Segment.HasRoles`: which end of a segment is its person and which its project.
- Definition `Segment.Passes`: what each check asks of a segment that stands behind others.
- Theorem `Draft.Describes.add_eq_error`: what a segment fails by.
- Definition `Path.Sound`: paths on which every segment passes every check.
- Structure `Path.FirstOffence`: the first check that fails along a path.
- Theorem `Connection.ofPath_accepts_or_reports`: when a path is accepted, and what it fails by
  otherwise.
-/

namespace Costar

/-! ## The roles of a segment -/

/-- Whether a node is labelled as a person and not as a project. -/
def Node.IsOnlyPerson (n : Node) : Prop :=
  Label.person ∈ n.labels ∧ ∀ label ∈ Label.projects, label ∉ n.labels

/-- Whether a node is labelled as a project and not as a person. -/
def Node.IsOnlyProject (n : Node) : Prop :=
  (∃ label ∈ Label.projects, label ∈ n.labels) ∧ Label.person ∉ n.labels

theorem Node.isOnlyPerson_iff {n : Node} :
    n.IsOnlyPerson ↔ n.isPerson = true ∧ n.isProject = false := by
  simp [IsOnlyPerson, isPerson, isProject]

theorem Node.isOnlyProject_iff {n : Node} :
    n.IsOnlyProject ↔ n.isPerson = false ∧ n.isProject = true := by
  simp [IsOnlyProject, isPerson, isProject, and_comm]

namespace Segment

/-- Whether of the two ends of a segment one is a person and the other a project. -/
structure HasRoles (s : Segment) (person project : Node) : Prop where
  ends : person = s.start ∧ project = s.finish ∨ person = s.finish ∧ project = s.start
  person : person.IsOnlyPerson
  project : project.IsOnlyProject

theorem roles?_eq_some_iff {s : Segment} {person project : Node} :
    s.roles? = some (person, project) ↔ s.HasRoles person project := by
  unfold roles?
  constructor
  · intro h
    split at h
    · rename_i hstart hnot hnot' hfinish
      cases h
      exact ⟨Or.inl ⟨rfl, rfl⟩, Node.isOnlyPerson_iff.mpr ⟨hstart, hnot⟩,
        Node.isOnlyProject_iff.mpr ⟨hnot', hfinish⟩⟩
    · rename_i hnot hstart hfinish hnot'
      cases h
      exact ⟨Or.inr ⟨rfl, rfl⟩, Node.isOnlyPerson_iff.mpr ⟨hfinish, hnot'⟩,
        Node.isOnlyProject_iff.mpr ⟨hnot, hstart⟩⟩
    · cases h
  · rintro ⟨⟨rfl, rfl⟩ | ⟨rfl, rfl⟩, hperson, hproject⟩
    · rw [Node.isOnlyPerson_iff] at hperson
      rw [Node.isOnlyProject_iff] at hproject
      simp only [hperson, hproject]
    · rw [Node.isOnlyPerson_iff] at hperson
      rw [Node.isOnlyProject_iff] at hproject
      simp only [hperson, hproject]

/-- A segment has its roles in one way only. -/
theorem HasRoles.unique {s : Segment} {person project person' project' : Node}
    (h : s.HasRoles person project) (h' : s.HasRoles person' project') :
    person = person' ∧ project = project' := by
  have hsame := (roles?_eq_some_iff.mpr h).symm.trans (roles?_eq_some_iff.mpr h')
  cases hsame
  exact ⟨rfl, rfl⟩

end Segment

/-! ## Checks -/

/-- What a segment is checked for. -/
inductive Check where
  | continues
  | labels
  | creditType
  | ends
  | project
  | credit
deriving DecidableEq, Repr

namespace Check

/-- The checks in the order in which they are made. -/
def all : List Check :=
  [.continues, .labels, .creditType, .ends, .project, .credit]

/-- The checks that are made before a check. -/
def before (check : Check) : List Check :=
  all.takeWhile (· != check)

theorem mem_all (check : Check) : check ∈ all := by
  cases check <;> decide

/-- Where not all of a list of checks are passed, one of them is failed first. -/
theorem forall_or_exists_first (passes : Check → Prop) (checks : List Check) :
    (∀ check ∈ checks, passes check) ∨
      ∃ check, (∀ other ∈ checks.takeWhile (· != check), passes other) ∧ ¬ passes check := by
  induction checks with
  | nil =>
      refine Or.inl ?_
      intro check hcheck
      cases hcheck
  | cons first rest ih =>
      by_cases hfirst : passes first
      · rcases ih with hrest | ⟨check, hbefore, hcheck⟩
        · exact Or.inl (List.forall_mem_cons.mpr ⟨hfirst, hrest⟩)
        · have hne : first ≠ check := by
            rintro rfl
            exact hcheck hfirst
          refine Or.inr ⟨check, ?_, hcheck⟩
          rw [List.takeWhile_cons_of_pos (by simpa using hne)]
          exact List.forall_mem_cons.mpr ⟨hfirst, hbefore⟩
      · refine Or.inr ⟨first, ?_, hfirst⟩
        simp

end Check

/-- Whether the fields of a record tell what project it is. -/
def Record.TellsProject (r : Record) : Prop :=
  ∃ field ∈ ["movie_id", "episode_id", "show_id", "tv_show_id"], r.populates field = true

/-- Whether the fields of a record tell what credit it is. -/
def Record.TellsCredit (r : Record) : Prop :=
  ∃ field ∈ ["character", "department"], r.populates field = true

namespace Segment

/-- Whether a segment passes a check when it stands behind others: it starts where the one before it
ends, joins a person and a project, has one of the types of credits, has a relationship between its
two nodes, names what its project is unless that has been named before, and names what its credit
is. -/
def Passes (earlier : List Segment) (s : Segment) : Check → Prop
  | .continues => ∀ previous, earlier.getLast? = some previous → s.start.id = previous.finish.id
  | .labels => ∃ person project, s.HasRoles person project
  | .creditType => s.relationship.type ∈ creditTypes
  | .ends =>
    ({s.relationship.start, s.relationship.finish} : Set String) = {s.start.id, s.finish.id}
  | .project => ∀ person project, s.HasRoles person project →
      (∃ t ∈ earlier, ∃ p q, t.HasRoles p q ∧ q.id = project.id) ∨ project.properties.TellsProject
  | .credit => s.relationship.properties.TellsCredit

/-- The names of the fields of a segment's project. -/
def projectFields (s : Segment) : List Text :=
  (s.roles?.map fun roles => roles.2.properties.sortedKeys).getD []

/-- What is reported of a segment that does not pass a check. -/
def failure (index : Nat) (s : Segment) : Check → Failure
  | .continues => .malformedSegment index .gap
  | .labels => .malformedSegment index (.labels s.start.sortedLabels s.finish.sortedLabels)
  | .creditType => .malformedSegment index (.creditType s.relationship.type)
  | .ends => .malformedSegment index .ends
  | .project => .unresolvedType .project s.projectFields
  | .credit => .unresolvedType .credit s.relationship.properties.sortedKeys

/-- Whether a check is the first that a segment fails. -/
def FailsFirst (earlier : List Segment) (s : Segment) (check : Check) : Prop :=
  (∀ other ∈ check.before, s.Passes earlier other) ∧ ¬ s.Passes earlier check

variable {earlier : List Segment} {s : Segment}

/-- A segment that does not pass all checks fails one of them first. -/
theorem passes_or_failsFirst (earlier : List Segment) (s : Segment) :
    (∀ check, s.Passes earlier check) ∨ ∃ check, s.FailsFirst earlier check := by
  rcases Check.forall_or_exists_first (s.Passes earlier) Check.all with hall | hfirst
  · exact Or.inl fun check => hall check check.mem_all
  · exact Or.inr hfirst

/-! ## Single checks -/

theorem checkContinues_of_passes {index : Nat} (h : s.Passes earlier .continues) :
    Draft.checkContinues index earlier.getLast? s = .ok () := by
  unfold Draft.checkContinues
  cases hlast : earlier.getLast? with
  | none => rfl
  | some previous => exact if_pos (h previous hlast)

theorem checkContinues_of_not_passes {index : Nat} (h : ¬ s.Passes earlier .continues) :
    Draft.checkContinues index earlier.getLast? s = .error (s.failure index .continues) := by
  unfold Draft.checkContinues
  cases hlast : earlier.getLast? with
  | none =>
      refine absurd ?_ h
      intro previous hprevious
      rw [hlast] at hprevious
      cases hprevious
  | some previous =>
      refine if_neg fun heq => h ?_
      intro other hother
      rw [hlast] at hother
      cases hother
      exact heq

theorem roles?_of_not_passes (h : ¬ s.Passes earlier .labels) : s.roles? = none := by
  cases hroles : s.roles? with
  | none => rfl
  | some roles => exact absurd ⟨roles.1, roles.2, roles?_eq_some_iff.mp hroles⟩ h

theorem contains_creditTypes :
    creditTypes.contains s.relationship.type = true ↔ s.Passes earlier .creditType :=
  List.contains_iff_mem

theorem isJoined_iff : s.isJoined = true ↔ s.Passes earlier .ends := by
  unfold isJoined Passes
  rw [Set.Subset.antisymm_iff]
  simp [Set.insert_subset_iff]

/-- What the check of its project asks of a segment whose roles are known. -/
theorem passes_project_iff {person project : Node} (h : s.HasRoles person project) :
    s.Passes earlier .project ↔
      (∃ t ∈ earlier, ∃ p q, t.HasRoles p q ∧ q.id = project.id) ∨
        project.properties.TellsProject := by
  constructor
  · intro hpasses
    exact hpasses person project h
  · intro hproject p q hroles
    rcases h.unique hroles with ⟨rfl, rfl⟩
    exact hproject

/-- A segment that passes the checks of its labels, type and ends is split into its roles. -/
theorem split_of_passes {index : Int} {person project : Node} (h : s.HasRoles person project)
    (htype : s.Passes earlier .creditType) (hends : s.Passes earlier .ends) :
    s.split index = .ok (person, project) := by
  unfold split
  rw [roles?_eq_some_iff.mpr h, contains_creditTypes.mpr htype, isJoined_iff.mpr hends]
  rfl

end Segment

/-! ## Records of projects and credits -/

theorem Project.exists_ofRecord {r : Record} (h : r.TellsProject) :
    ∃ project, ofRecord r = .ok project := by
  unfold ofRecord
  split
  · exact ⟨_, rfl⟩
  · rename_i hmovie
    rw [if_pos]
    · exact ⟨_, rfl⟩
    · simpa [Record.TellsProject, hmovie] using h

theorem Project.ofRecord_of_not_tells {r : Record} (h : ¬ r.TellsProject) :
    ofRecord r = .error (.unresolvedType .project r.sortedKeys) := by
  simp only [Record.TellsProject, List.mem_cons, List.not_mem_nil, or_false, exists_eq_or_imp,
    exists_eq_left, not_or] at h
  simp [ofRecord, h]

theorem Credit.exists_ofRecord {r : Record} (h : r.TellsCredit) :
    ∃ credit, ofRecord r = .ok credit := by
  unfold ofRecord
  split
  · exact ⟨_, rfl⟩
  · rename_i hcharacter
    rw [if_pos]
    · exact ⟨_, rfl⟩
    · simpa [Record.TellsCredit, hcharacter] using h

theorem Credit.ofRecord_of_not_tells {r : Record} (h : ¬ r.TellsCredit) :
    ofRecord r = .error (.unresolvedType .credit r.sortedKeys) := by
  simp only [Record.TellsCredit, List.mem_cons, List.not_mem_nil, or_false, exists_eq_or_imp,
    exists_eq_left, not_or] at h
  simp [ofRecord, h]

/-! ## Adding a segment -/

namespace Draft

variable {d : Draft} {earlier : List Segment} {s : Segment} {person project : Node}

/-- The ids of a draft's projects are those that the projects of its segments have. -/
theorem Describes.mem_projects (hd : d.Describes earlier) {id : String} :
    id ∈ d.projects.map (·.1) ↔ ∃ t ∈ earlier, ∃ p q, t.HasRoles p q ∧ q.id = id := by
  constructor
  · intro hid
    rcases List.mem_map.mp hid with ⟨x, hx, rfl⟩
    rcases hd.projects x hx with ⟨t, ht, p, q, hroles, hq, -⟩
    exact ⟨t, ht, p, q, Segment.roles?_eq_some_iff.mp hroles, hq⟩
  · rintro ⟨t, ht, p, q, hroles, rfl⟩
    rcases hd.places_of_mem ht with ⟨u, -, p', q', hplaces⟩
    rcases hroles.unique (Segment.roles?_eq_some_iff.mp hplaces.roles) with ⟨rfl, rfl⟩
    exact Register.mem_of_position? hplaces.project

theorem exists_enroll_project (hd : d.Describes earlier) (h : s.HasRoles person project)
    (hpasses : s.Passes earlier .project) :
    ∃ x, d.projects.enroll project.id (Project.ofRecord project.properties) = .ok x := by
  refine Register.exists_enroll ?_
  rcases (Segment.passes_project_iff h).mp hpasses with hnamed | htells
  · exact Or.inl (hd.mem_projects.mpr hnamed)
  · exact Or.inr (Project.exists_ofRecord htells)

theorem enroll_project_of_not_passes (hd : d.Describes earlier) (h : s.HasRoles person project)
    (hnot : ¬ s.Passes earlier .project) (index : Nat) :
    d.projects.enroll project.id (Project.ofRecord project.properties) =
      .error (s.failure index .project) := by
  rw [Segment.passes_project_iff h, not_or, ← hd.mem_projects] at hnot
  rw [Register.enroll_eq_error, Project.ofRecord_of_not_tells hnot.2]
  refine ⟨hnot.1, ?_⟩
  simp [Segment.failure, Segment.projectFields, Segment.roles?_eq_some_iff.mpr h]

/-- Behind the checks of its structure, what is left of adding a segment are its project and its
credit. -/
theorem add_of_structure (d : Draft) (index : Nat) (h : s.HasRoles person project)
    (hcontinues : s.Passes earlier .continues) (htype : s.Passes earlier .creditType)
    (hends : s.Passes earlier .ends) :
    ∃ people i, d.add index earlier.getLast? s = (do
      let (projects, j) ←
        d.projects.enroll project.id (Project.ofRecord project.properties)
      let credit ← Credit.ofRecord s.relationship.properties
      pure ⟨people, projects, d.triples ++ [⟨i, credit, j⟩]⟩) := by
  obtain ⟨⟨people, i⟩, hpeople⟩ : ∃ x, d.people.enroll person.id (.ok person.properties) = .ok x :=
    Register.exists_enroll (Or.inr ⟨_, rfl⟩)
  refine ⟨people, i, ?_⟩
  unfold add
  rw [Segment.checkContinues_of_passes hcontinues, Segment.split_of_passes h htype hends]
  change (d.people.enroll person.id (.ok person.properties) >>= _) = _
  rw [hpeople]
  rfl

/-- A segment that passes all checks is added. -/
theorem Describes.exists_add (hd : d.Describes earlier) (hall : ∀ check, s.Passes earlier check) :
    ∃ e, d.add earlier.length earlier.getLast? s = .ok e := by
  rcases hall .labels with ⟨person, project, h⟩
  rcases add_of_structure d earlier.length h (hall .continues) (hall .creditType) (hall .ends) with
    ⟨people, i, hadd⟩
  rcases exists_enroll_project hd h (hall .project) with ⟨⟨projects, j⟩, hprojects⟩
  rcases Credit.exists_ofRecord (hall .credit) with ⟨credit, hcredit⟩
  rw [hadd, hprojects, hcredit]
  exact ⟨_, rfl⟩

/-- A segment that fails a check is not added, and what is reported is the first that it fails. -/
theorem Describes.add_of_failsFirst (hd : d.Describes earlier) {check : Check}
    (h : s.FailsFirst earlier check) :
    d.add earlier.length earlier.getLast? s = .error (s.failure earlier.length check) := by
  rcases h with ⟨hbefore, hnot⟩
  cases check with
  | continues =>
      unfold Draft.add
      rw [Segment.checkContinues_of_not_passes hnot]
      rfl
  | labels =>
      have hcontinues := hbefore .continues (by decide)
      unfold Draft.add
      rw [Segment.checkContinues_of_passes hcontinues, Segment.split,
        Segment.roles?_of_not_passes hnot]
      rfl
  | creditType =>
      have hcontinues := hbefore .continues (by decide)
      rcases hbefore .labels (by decide) with ⟨person, project, hroles⟩
      rw [← Segment.contains_creditTypes, Bool.not_eq_true] at hnot
      unfold Draft.add
      rw [Segment.checkContinues_of_passes hcontinues, Segment.split,
        Segment.roles?_eq_some_iff.mpr hroles, hnot]
      rfl
  | ends =>
      have hcontinues := hbefore .continues (by decide)
      have htype := hbefore .creditType (by decide)
      rcases hbefore .labels (by decide) with ⟨person, project, hroles⟩
      rw [← Segment.isJoined_iff, Bool.not_eq_true] at hnot
      unfold Draft.add
      rw [Segment.checkContinues_of_passes hcontinues, Segment.split,
        Segment.roles?_eq_some_iff.mpr hroles, Segment.contains_creditTypes.mpr htype, hnot]
      rfl
  | project =>
      rcases hbefore .labels (by decide) with ⟨person, project, hroles⟩
      rcases add_of_structure d earlier.length hroles (hbefore .continues (by decide))
        (hbefore .creditType (by decide)) (hbefore .ends (by decide)) with ⟨people, i, hadd⟩
      rw [hadd, enroll_project_of_not_passes hd hroles hnot earlier.length]
      rfl
  | credit =>
      rcases hbefore .labels (by decide) with ⟨person, project, hroles⟩
      rcases add_of_structure d earlier.length hroles (hbefore .continues (by decide))
        (hbefore .creditType (by decide)) (hbefore .ends (by decide)) with ⟨people, i, hadd⟩
      rcases exists_enroll_project hd hroles (hbefore .project (by decide)) with
        ⟨⟨projects, j⟩, hprojects⟩
      rw [hadd, hprojects, Credit.ofRecord_of_not_tells hnot]
      rfl

/-- A segment is added exactly when it passes all checks. -/
theorem Describes.exists_add_iff (hd : d.Describes earlier) :
    (∃ e, d.add earlier.length earlier.getLast? s = .ok e) ↔ ∀ check, s.Passes earlier check := by
  constructor
  · rintro ⟨e, he⟩
    rcases s.passes_or_failsFirst earlier with hall | ⟨check, hcheck⟩
    · exact hall
    · rw [hd.add_of_failsFirst hcheck] at he
      cases he
  · exact hd.exists_add

/-- A segment that is not added is reported by the first check that it fails. -/
theorem Describes.add_eq_error (hd : d.Describes earlier) {f : Failure} :
    d.add earlier.length earlier.getLast? s = .error f ↔
      ∃ check, s.FailsFirst earlier check ∧ f = s.failure earlier.length check := by
  constructor
  · intro h
    rcases s.passes_or_failsFirst earlier with hall | ⟨check, hcheck⟩
    · rcases hd.exists_add hall with ⟨e, he⟩
      rw [he] at h
      cases h
    · rw [hd.add_of_failsFirst hcheck] at h
      cases h
      exact ⟨check, hcheck, rfl⟩
  · rintro ⟨check, hcheck, rfl⟩
    exact hd.add_of_failsFirst hcheck

end Draft

/-! ## Checks along a path -/

namespace Path

/-- Whether every segment of a path passes every check. -/
def Sound (p : Path) : Prop :=
  ∀ earlier s later, p = earlier ++ s :: later → ∀ check, s.Passes earlier check

/-- Whether a check is the first to fail along a path, of a segment behind others. -/
structure FirstOffence (p : Path) (earlier : List Segment) (s : Segment) (check : Check) :
    Prop where
  found : ∃ later, p = earlier ++ s :: later
  sound : Sound earlier
  fails : s.FailsFirst earlier check

variable {p earlier : List Segment} {s t : Segment} {check : Check}

theorem sound_nil : Sound [] := by
  intro earlier s later h
  exact absurd h.symm (List.append_ne_nil_of_right_ne_nil _ (List.cons_ne_nil s later))

theorem not_firstOffence_nil : ¬ FirstOffence [] earlier s check := by
  rintro ⟨⟨later, h⟩, -, -⟩
  exact absurd h.symm (List.append_ne_nil_of_right_ne_nil _ (List.cons_ne_nil s later))

/-- Where the last segment stands in a path. -/
theorem concat_eq_append_cons {later : List Segment} :
    p ++ [s] = earlier ++ t :: later ↔
      earlier = p ∧ t = s ∧ later = [] ∨ ∃ rest, later = rest ++ [s] ∧ p = earlier ++ t :: rest := by
  rcases List.eq_nil_or_concat later with rfl | ⟨rest, last, rfl⟩
  · constructor
    · intro h
      rcases List.append_inj' h rfl with ⟨rfl, hlast⟩
      cases hlast
      exact Or.inl ⟨rfl, rfl, rfl⟩
    · rintro (⟨rfl, rfl, -⟩ | ⟨rest, hrest, -⟩)
      · rfl
      · exact absurd hrest.symm (List.append_ne_nil_of_right_ne_nil _ (List.cons_ne_nil s []))
  · rw [List.concat_eq_append, ← List.cons_append, ← List.append_assoc]
    constructor
    · intro h
      rcases List.append_inj' h rfl with ⟨hp, hlast⟩
      cases hlast
      exact Or.inr ⟨rest, rfl, hp⟩
    · rintro (⟨-, -, hnil⟩ | ⟨rest', hrest, hp⟩)
      · exact absurd hnil (List.append_ne_nil_of_right_ne_nil _ (List.cons_ne_nil last []))
      · rcases List.append_inj' hrest rfl with ⟨rfl, hlast⟩
        cases hlast
        rw [hp]

theorem sound_concat : Sound (p ++ [s]) ↔ Sound p ∧ ∀ check, s.Passes p check := by
  constructor
  · intro h
    constructor
    · intro earlier t later hp
      exact h earlier t (later ++ [s]) (concat_eq_append_cons.mpr (Or.inr ⟨later, rfl, hp⟩))
    · exact h p s [] rfl
  · rintro ⟨hp, hs⟩ earlier t later hsplit
    rcases concat_eq_append_cons.mp hsplit with ⟨rfl, rfl, -⟩ | ⟨rest, -, hrest⟩
    · exact hs
    · exact hp earlier t rest hrest

/-- A check is the first to fail along a path if it is so on the path without its last segment, or
fails of that one where all others are sound. -/
theorem firstOffence_concat :
    FirstOffence (p ++ [s]) earlier t check ↔
      FirstOffence p earlier t check ∨
        Sound p ∧ earlier = p ∧ t = s ∧ s.FailsFirst p check := by
  constructor
  · rintro ⟨⟨later, hsplit⟩, hsound, hfails⟩
    rcases concat_eq_append_cons.mp hsplit with ⟨rfl, rfl, -⟩ | ⟨rest, -, hrest⟩
    · exact Or.inr ⟨hsound, rfl, rfl, hfails⟩
    · exact Or.inl ⟨⟨rest, hrest⟩, hsound, hfails⟩
  · rintro (⟨⟨later, hp⟩, hsound, hfails⟩ | ⟨hsound, rfl, rfl, hfails⟩)
    · exact ⟨⟨later ++ [s], concat_eq_append_cons.mpr (Or.inr ⟨later, rfl, hp⟩)⟩, hsound, hfails⟩
    · exact ⟨⟨[], rfl⟩, hsound, hfails⟩

end Path

namespace Draft

/-- The last segment of a path is added to the draft of the others. -/
theorem addAll_path_concat (p : List Segment) (s : Segment) :
    Draft.addAll {} 0 none (p ++ [s]) =
      Draft.addAll {} 0 none p >>= fun d => d.add p.length p.getLast? s := by
  rw [addAll_concat, Nat.zero_add, Option.or_none]

theorem exists_addAll_iff (p : Path) :
    (∃ d, Draft.addAll {} 0 none p = .ok d) ↔ p.Sound := by
  induction p using List.reverseRecOn with
  | nil => exact iff_of_true ⟨{}, rfl⟩ Path.sound_nil
  | append_singleton p s ih =>
      rw [Path.sound_concat, ← ih, addAll_path_concat]
      constructor
      · rintro ⟨e, he⟩
        rcases Failure.bind_eq_ok.mp he with ⟨d, hd, hadd⟩
        exact ⟨⟨d, hd⟩, (describes_empty.addAll hd).exists_add_iff.mp ⟨e, hadd⟩⟩
      · rintro ⟨⟨d, hd⟩, hall⟩
        rcases (describes_empty.addAll hd).exists_add_iff.mpr hall with ⟨e, he⟩
        exact ⟨e, Failure.bind_eq_ok.mpr ⟨d, hd, he⟩⟩

theorem addAll_eq_error (p : Path) {f : Failure} :
    Draft.addAll {} 0 none p = .error f ↔
      ∃ earlier s check, p.FirstOffence earlier s check ∧ f = s.failure earlier.length check := by
  induction p using List.reverseRecOn with
  | nil =>
      constructor
      · intro h
        cases h
      · rintro ⟨earlier, s, check, hoffence, -⟩
        exact absurd hoffence Path.not_firstOffence_nil
  | append_singleton p s ih =>
      rw [addAll_path_concat, Failure.bind_eq_error, ih]
      constructor
      · rintro (⟨earlier, t, check, hoffence, hf⟩ | ⟨d, hd, hadd⟩)
        · exact ⟨earlier, t, check, Path.firstOffence_concat.mpr (Or.inl hoffence), hf⟩
        · rcases (describes_empty.addAll hd).add_eq_error.mp hadd with ⟨check, hcheck, hf⟩
          have hsound := (exists_addAll_iff p).mp ⟨d, hd⟩
          refine ⟨p, s, check, Path.firstOffence_concat.mpr (Or.inr ?_), hf⟩
          exact ⟨hsound, rfl, rfl, hcheck⟩
      · rintro ⟨earlier, t, check, hoffence, hf⟩
        rcases Path.firstOffence_concat.mp hoffence with hp | ⟨hsound, rfl, rfl, hcheck⟩
        · exact Or.inl ⟨earlier, t, check, hp, hf⟩
        · rcases (exists_addAll_iff earlier).mpr hsound with ⟨d, hd⟩
          exact Or.inr ⟨d, hd, (describes_empty.addAll hd).add_eq_error.mpr ⟨check, hcheck, hf⟩⟩

end Draft

namespace Connection

theorem ofPath_of_ne_nil {p : Path} (hp : p ≠ []) :
    ofPath p = (Draft.addAll {} 0 none p).map Draft.toConnection := by
  cases p with
  | nil => exact absurd rfl hp
  | cons s rest => rfl

/-- A path is accepted when it has segments and all of them pass all checks. -/
theorem exists_ofPath_iff {p : Path} : (∃ c, ofPath p = .ok c) ↔ p ≠ [] ∧ p.Sound := by
  constructor
  · rintro ⟨c, hc⟩
    rcases ofPath_eq_ok hc with ⟨hp, d, hd, -⟩
    exact ⟨hp, (Draft.exists_addAll_iff p).mp ⟨d, hd⟩⟩
  · rintro ⟨hp, hsound⟩
    rcases (Draft.exists_addAll_iff p).mpr hsound with ⟨d, hd⟩
    rw [ofPath_of_ne_nil hp, hd]
    exact ⟨_, rfl⟩

/-- A path that is not accepted has no segments, or is reported by the first check that fails. -/
theorem ofPath_eq_error {p : Path} {f : Failure} :
    ofPath p = .error f ↔
      p = [] ∧ f = .emptyPath .noSegments ∨
        ∃ earlier s check, p.FirstOffence earlier s check ∧
          f = s.failure earlier.length check := by
  by_cases hp : p = []
  · subst hp
    constructor
    · intro h
      cases h
      exact Or.inl ⟨rfl, rfl⟩
    · rintro (⟨-, rfl⟩ | ⟨earlier, s, check, hoffence, -⟩)
      · rfl
      · exact absurd hoffence Path.not_firstOffence_nil
  · rw [ofPath_of_ne_nil hp, Failure.map_eq_error, Draft.addAll_eq_error]
    exact (or_iff_right fun hempty => hp hempty.1).symm

/-- A path without segments is empty, a path is accepted when it has segments and all of them pass
all checks, and any other path is reported by the first check that fails along it. -/
theorem ofPath_accepts_or_reports (p : Path) :
    ((∃ reason, ofPath p = .error (.emptyPath reason)) ↔ p = []) ∧
      ((∃ c, ofPath p = .ok c) ↔ p ≠ [] ∧ p.Sound) ∧
      ∀ f, ofPath p = .error f ↔
        p = [] ∧ f = .emptyPath .noSegments ∨
          ∃ earlier s check, p.FirstOffence earlier s check ∧
            f = s.failure earlier.length check := by
  refine ⟨?_, exists_ofPath_iff, fun f => ofPath_eq_error⟩
  constructor
  · rintro ⟨reason, h⟩
    rcases ofPath_eq_error.mp h with ⟨hp, -⟩ | ⟨earlier, s, check, -, hf⟩
    · exact hp
    · cases check <;> cases hf
  · rintro rfl
    exact ⟨.noSegments, rfl⟩

end Connection

end Costar
