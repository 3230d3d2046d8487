import Costar.Proofs.Connection.Draft
import Costar.Proofs.Enrichment.Orders
import Costar.Proofs.Failure

/-!
# Connections that can be told

A connection can be reported and written out line by line when none of the episodes that its triples
refer to is pending.  An enrichment that succeeds brings this about.  What is done to a connection
afterwards can change every property of every project, also those by which its type was told and
its show found, but it changes no type and makes no episode pending again; so as long as the triples
refer to the same projects, the connection can still be told.

Main results:

- Inductive `Project.Becomes`: what may become of a project.
- Structure `Connection.Becomes`: what may become of a connection that is not replaced.
- Theorem `Connection.Settled.told`: a connection without pending episodes can be told.
- Theorem `Connection.Settled.of_becomes`: it can still be told after a change that keeps what its
  triples refer to.
- Theorem `Connection.settled_enriched`: an enrichment that succeeds leaves no episode pending.
-/

namespace Costar

/-! ## What becomes of projects -/

namespace Project

/-- Whether a project is an episode whose show has not been looked up. -/
def IsPending (p : Project) : Prop :=
  ∃ r, p = .episode r .pending

/-- What may become of a project: it keeps its type, and an episode that is not pending stays so. -/
inductive Becomes : Project → Project → Prop where
  | movie (r s : Record) : Becomes (.movie r) (.movie s)
  | episode (r s : Record) {old new : ParentShow} (h : new = .pending → old = .pending) :
      Becomes (.episode r old) (.episode s new)

theorem Becomes.refl (p : Project) : p.Becomes p := by
  cases p with
  | movie r => exact .movie r r
  | episode r parent => exact .episode r r id

theorem Becomes.trans {p q s : Project} (h : p.Becomes q) (h' : q.Becomes s) : p.Becomes s := by
  cases h with
  | movie r _ =>
      cases h' with
      | movie _ t => exact .movie r t
  | episode r _ hold =>
      cases h' with
      | episode _ t hnew => exact .episode r t fun hpending => hold (hnew hpending)

theorem Becomes.not_isPending {p q : Project} (h : p.Becomes q) (hp : ¬ p.IsPending) :
    ¬ q.IsPending := by
  rintro ⟨r, rfl⟩
  cases h with
  | episode s _ hold => exact hp ⟨s, by rw [hold rfl]⟩

theorem becomes_mapProperties (p : Project) (f : Record → Record) :
    p.Becomes (p.mapProperties f) := by
  cases p with
  | movie r => exact .movie r (f r)
  | episode r parent => exact .episode r (f r) id

end Project

/-- Neither a task that ends well nor one that fails makes an episode pending again. -/
theorem Enrichment.parentAfter_eq_pending {access : Access} {db : Database} {r : Record}
    {old : ParentShow} (h : parentAfter access db r old = .pending) : old = .pending := by
  by_cases hfails : ∃ f, Fails access db (0, r) f
  · rcases hfails with ⟨f, hf⟩
    rwa [parentAfter_of_fails hf old] at h
  · have hattached := attached_of_not_fails (not_exists.mp hfails) old
    exact absurd h hattached.ne_pending

theorem Project.becomes_enriched (access : Access) (db : Database) (p : Project) :
    p.Becomes (p.enriched access db) := by
  cases p with
  | movie r => exact .movie r r
  | episode r old => exact .episode r r Enrichment.parentAfter_eq_pending

namespace Connection

/-! ## What becomes of connections -/

/-- What may become of a connection that is not replaced: its people and projects keep their
positions, and its projects become what projects may become. -/
structure Becomes (c d : Connection) : Prop where
  people : c.people.length ≤ d.people.length
  projects : ∀ {i : Nat} {p : Project}, c.projects[i]? = some p →
    ∃ q, d.projects[i]? = some q ∧ p.Becomes q

theorem Becomes.refl (c : Connection) : c.Becomes c where
  people := Nat.le_refl _
  projects := fun {_ p} hp => ⟨p, hp, .refl p⟩

theorem Becomes.trans {b c d : Connection} (h : b.Becomes c) (h' : c.Becomes d) : b.Becomes d where
  people := Nat.le_trans h.people h'.people
  projects := by
    intro i p hp
    rcases h.projects hp with ⟨q, hq, hpq⟩
    rcases h'.projects hq with ⟨s, hs, hqs⟩
    exact ⟨s, hs, hpq.trans hqs⟩

/-- The person and the project that each triple refers to. -/
def references (c : Connection) : List (Nat × Nat) :=
  c.triples.map fun t => (t.person, t.project)

/-- A triple of a connection with the same references as another has those of a triple there. -/
theorem exists_triple {c d : Connection} (h : d.references = c.references) {t : Triple}
    (ht : t ∈ d.triples) : ∃ u ∈ c.triples, u.person = t.person ∧ u.project = t.project := by
  have hmem : (t.person, t.project) ∈ c.references := by
    rw [← h]
    exact List.mem_map_of_mem ht
  rcases List.mem_map.mp hmem with ⟨u, hu, heq⟩
  exact ⟨u, hu, congrArg Prod.fst heq, congrArg Prod.snd heq⟩

theorem WellFormed.of_becomes {c d : Connection} (hc : c.WellFormed) (h : c.Becomes d)
    (hreferences : d.references = c.references) : d.WellFormed := by
  intro t ht
  rcases exists_triple hreferences ht with ⟨u, hu, hperson, hproject⟩
  rcases hc u hu with ⟨hup, huq⟩
  rcases h.projects (List.getElem?_eq_getElem huq) with ⟨q, hq, -⟩
  rw [← hperson, ← hproject]
  exact ⟨Nat.lt_of_lt_of_le hup h.people, (List.getElem?_eq_some_iff.mp hq).1⟩

/-! ## Settled connections -/

/-- Whether no triple of a connection refers to a pending episode. -/
def Settled (c : Connection) : Prop :=
  ∀ t ∈ c.triples, ∀ p, c.projects[t.project]? = some p → ¬ p.IsPending

/-- Whether every step of a connection can be reported, and written as a line under any number. -/
def Told (c : Connection) : Prop :=
  ∀ s ∈ c.steps, (∃ r, s.describe = .ok r) ∧ ∀ n, ∃ text, s.line n = .ok text

end Connection

theorem Project.exists_describe {p : Project} (h : ¬ p.IsPending) : ∃ r, p.describe = .ok r := by
  cases p with
  | movie r => exact ⟨_, rfl⟩
  | episode r parent =>
      cases parent with
      | pending => exact absurd ⟨r, rfl⟩ h
      | absent => exact ⟨_, rfl⟩
      | found properties => exact ⟨_, rfl⟩

theorem Step.exists_describe {s : Step} (h : ¬ s.project.IsPending) :
    ∃ r, s.describe = .ok r := by
  rcases Project.exists_describe h with ⟨r, hr⟩
  unfold describe
  rw [hr]
  exact ⟨_, rfl⟩

theorem Step.exists_line {s : Step} (h : ¬ s.project.IsPending) (n : Int) :
    ∃ text, s.line n = .ok text := by
  unfold line
  split
  · exact ⟨_, rfl⟩
  · exact ⟨_, rfl⟩
  · exact ⟨_, rfl⟩
  · rename_i r heq
    exact absurd ⟨r, heq⟩ h

namespace Connection

variable {c d : Connection}

/-- A connection whose triples refer to no pending episode can be told. -/
theorem Settled.told (hc : c.Settled) : c.Told := by
  intro s hs
  rcases List.mem_map.mp hs with ⟨t, ht, rfl⟩
  have hsettled : ¬ (c.step t).project.IsPending := by
    unfold step
    cases hproject : c.projects[t.project]? with
    | none =>
        rintro ⟨r, hr⟩
        cases hr
    | some p => exact hc t ht p hproject
  exact ⟨Step.exists_describe hsettled, Step.exists_line hsettled⟩

theorem Told.exists_describe (hc : c.Told) :
    ∃ records, c.steps.mapM Step.describe = .ok records := by
  cases h : c.steps.mapM Step.describe with
  | ok records => exact ⟨records, rfl⟩
  | error f =>
      rcases Failure.mapM_eq_error.mp h with ⟨before, s, after, hsteps, -, hf⟩
      have hs : s ∈ c.steps := by
        rw [hsteps]
        exact List.mem_append_right _ List.mem_cons_self
      rcases (hc s hs).1 with ⟨r, hr⟩
      rw [hf] at hr
      cases hr

/-- A change that keeps what the triples refer to leaves no episode pending where none was. -/
theorem Settled.of_becomes (hc : c.Settled) (hwf : c.WellFormed) (h : c.Becomes d)
    (hreferences : d.references = c.references) : d.Settled := by
  intro t ht q hq
  rcases exists_triple hreferences ht with ⟨u, hu, -, hproject⟩
  have hp := List.getElem?_eq_getElem (hwf u hu).2
  rcases h.projects hp with ⟨q', hq', hbecomes⟩
  rw [hproject, hq] at hq'
  cases hq'
  exact hbecomes.not_isPending (hc u hu _ hp)

/-! ## Enrichment -/

theorem becomes_enriched (access : Access) (stores : Enrichment.Stores) (c : Connection) :
    c.Becomes (c.enriched access stores) where
  people := Nat.le_refl _
  projects := by
    intro i p hp
    refine ⟨_, by rw [enriched, List.getElem?_mapIdx, hp, Option.map_some], ?_⟩
    split
    · exact p.becomes_enriched access (stores i)
    · exact .refl p

theorem references_enriched (access : Access) (stores : Enrichment.Stores) (c : Connection) :
    (c.enriched access stores).references = c.references :=
  rfl

/-- An enrichment that succeeds leaves no episode pending. -/
theorem settled_enriched {access : Access} {stores : Enrichment.Stores}
    (h : Enrichment.resultOf access stores c = .ok ()) : (c.enriched access stores).Settled := by
  rintro t ht p hp ⟨r, rfl⟩
  have href : t.project ∈ c.projectRefs := List.mem_map_of_mem ht
  rw [enriched, List.getElem?_mapIdx, Option.map_eq_some_iff] at hp
  rcases hp with ⟨q, hq, hp⟩
  rw [if_pos href] at hp
  cases q with
  | movie s => cases hp
  | episode s old =>
      have hpending : Enrichment.parentAfter access (stores t.project) s old = .pending := by
        injection hp
      have hmem : (t.project, s) ∈ c.episodes := mem_episodes.mpr ⟨href, old, hq⟩
      have hattached := Enrichment.attached_of_not_fails
        (Enrichment.resultOf_eq_ok.mp h (t.project, s) hmem) old
      exact hattached.ne_pending hpending

/-- Whether of a connection at most the shows of episodes have changed. -/
structure OnlyShowsChanged (c d : Connection) : Prop where
  people : d.people = c.people
  triples : d.triples = c.triples
  projects : List.Forall₂ (fun p q => ∃ parent, q = p.withParent parent) c.projects d.projects

theorem onlyShowsChanged_enriched (access : Access) (stores : Enrichment.Stores) (c : Connection) :
    c.OnlyShowsChanged (c.enriched access stores) where
  people := rfl
  triples := rfl
  projects := by
    rw [List.forall₂_iff_get]
    refine ⟨(List.length_mapIdx).symm, ?_⟩
    intro i hi hi'
    have hproject : (c.enriched access stores).projects[i] =
        if i ∈ c.projectRefs then c.projects[i].enriched access (stores i) else c.projects[i] :=
      List.getElem_mapIdx
    rw [List.get_eq_getElem, List.get_eq_getElem, hproject]
    generalize c.projects[i] = p
    cases p with
    | movie r => exact ⟨.absent, by split <;> rfl⟩
    | episode r old =>
        split
        · exact ⟨_, rfl⟩
        · exact ⟨old, rfl⟩

/-! ## Paths, joined connections and changed properties -/

theorem wellFormed_of_ofPath {path : Path} (h : ofPath path = .ok c) : c.WellFormed := by
  rcases describes_of_ofPath h with ⟨-, d, hd, rfl⟩
  exact hd.wellFormed

theorem becomes_append (c d : Connection) : c.Becomes (c.append d) where
  people := by
    rw [append, List.length_append]
    exact Nat.le_add_right _ _
  projects := by
    intro i p hp
    have hi := (List.getElem?_eq_some_iff.mp hp).1
    exact ⟨p, by rw [append, List.getElem?_append_left hi, hp], .refl p⟩

theorem WellFormed.append (hc : c.WellFormed) (hd : d.WellFormed) : (c.append d).WellFormed := by
  intro t ht
  simp only [Connection.append, List.length_append]
  rcases List.mem_append.mp ht with ht | ht
  · rcases hc t ht with ⟨hperson, hproject⟩
    omega
  · rcases List.mem_map.mp ht with ⟨u, hu, rfl⟩
    rcases hd u hu with ⟨hperson, hproject⟩
    simp only [shift]
    omega

/-- Setting a property changes nothing but properties. -/
theorem becomes_of_setProperty {index : Nat} {part : Part} {key : Text} {v : Value}
    (h : c.setProperty index part key v = .ok d) :
    c.Becomes d ∧ d.references = c.references := by
  unfold setProperty at h
  split at h
  · cases h
  · rename_i t ht
    cases part with
    | person =>
        cases h
        exact ⟨⟨by rw [List.length_modify], fun {_ p} hp => ⟨p, hp, .refl p⟩⟩, rfl⟩
    | credit =>
        cases h
        refine ⟨⟨Nat.le_refl _, fun {_ p} hp => ⟨p, hp, .refl p⟩⟩, ?_⟩
        unfold references
        refine List.ext_getElem? fun i => ?_
        rw [List.getElem?_map, List.getElem?_map, List.getElem?_modify, Option.map_eq_map,
          Option.map_map]
        refine congrArg (Option.map · _) (funext fun t => ?_)
        by_cases hi : index = i <;> simp [hi]
    | project =>
        cases h
        refine ⟨⟨Nat.le_refl _, ?_⟩, rfl⟩
        intro i p hp
        rw [List.getElem?_modify, hp]
        split
        · exact ⟨_, rfl, p.becomes_mapProperties _⟩
        · exact ⟨_, rfl, .refl p⟩

end Connection

end Costar
