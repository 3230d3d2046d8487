import Costar.Enrichment.Enrich
import Mathlib.Data.List.Basic
import Mathlib.Data.List.Induction

/-!
# What an enrichment attaches

An enrichment works on the episodes that the triples of a connection refer to.  This module says
which these are and what each of them is to end up with, without saying in which order anything
happens.

Main results:

- Theorem `Connection.mem_episodes`: the episodes worked on are those that triples refer to.
- Theorem `Connection.pairwise_episodes`: each of them is there once, in the order in which the
  triples first refer to them.
- Definition `Project.RefersTo`: the show that an episode refers to.
- Definitions `Attached` and `Fails`: the ways in which the task of an episode can end.
- Theorems `taskFailure?_eq_some` and `attached_of_not_fails`: it ends in one of them.
- Definition `Project.enriched`: a project with the show that its own lookup leaves it with.
- Theorem `Enrichment.settle_projects`: what comes of a lookup changes the project it is for and
  no other.
-/

namespace Costar

/-! ## The episodes of a connection -/

/-- Elements kept by `eraseDups` stand in the order of their first occurrences. -/
theorem pairwise_eraseDups (l : List Nat) :
    l.eraseDups.Pairwise fun i j => l.idxOf i < l.idxOf j := by
  induction l using List.reverseRecOn with
  | nil => exact List.Pairwise.nil
  | append_singleton l b ih =>
      have hold : ∀ i ∈ l.eraseDups, (l ++ [b]).idxOf i = l.idxOf i := by
        intro i hi
        rw [List.idxOf_append_of_mem (List.mem_eraseDups.mp hi)]
      rw [List.eraseDups_append, List.pairwise_append]
      refine ⟨?_, ?_, ?_⟩
      · apply ih.imp_of_mem
        intro i j hi hj hij
        rw [hold i hi, hold j hj]
        exact hij
      · by_cases hb : b ∈ l <;> simp [List.removeAll, hb, List.eraseDups_cons]
      · intro i hi j hj
        have hj' : j = b ∧ b ∉ l := by
          rw [List.mem_eraseDups] at hj
          simp only [List.removeAll, List.mem_filter, List.mem_singleton] at hj
          rcases hj with ⟨rfl, hjl⟩
          exact ⟨rfl, by simpa using hjl⟩
        rcases hj' with ⟨rfl, hjl⟩
        rw [hold i hi, List.idxOf_append_of_notMem hjl]
        have := List.idxOf_lt_length_of_mem (List.mem_eraseDups.mp hi)
        omega

namespace Connection

/-- The positions of the projects that the triples refer to, from the first triple to the
last. -/
def projectRefs (c : Connection) : List Nat :=
  c.triples.map (·.project)

theorem episodeAt?_eq_some {c : Connection} {i : Nat} {e : Nat × Record} :
    c.episodeAt? i = some e ↔
      e.1 = i ∧ ∃ parent, c.projects[i]? = some (.episode e.2 parent) := by
  unfold episodeAt?
  split
  · rename_i properties parent h
    constructor
    · intro he
      cases he
      exact ⟨rfl, parent, h⟩
    · rintro ⟨rfl, parent', h'⟩
      rw [h] at h'
      cases h'
      rfl
  · rename_i hnot
    constructor
    · intro he
      cases he
    · rintro ⟨-, parent, h⟩
      exact (hnot e.2 parent h).elim

/-- The episodes of a connection are those that its triples refer to. -/
theorem mem_episodes {c : Connection} {i : Nat} {r : Record} :
    (i, r) ∈ c.episodes ↔
      i ∈ c.projectRefs ∧ ∃ parent, c.projects[i]? = some (.episode r parent) := by
  unfold episodes projectRefs
  rw [List.mem_filterMap]
  constructor
  · rintro ⟨j, hj, he⟩
    rcases episodeAt?_eq_some.mp he with ⟨rfl, hparent⟩
    exact ⟨List.mem_eraseDups.mp hj, hparent⟩
  · rintro ⟨hi, hparent⟩
    exact ⟨i, List.mem_eraseDups.mpr hi, episodeAt?_eq_some.mpr ⟨rfl, hparent⟩⟩

/-- Episodes stand in the order in which the triples first refer to them. -/
theorem pairwise_episodes (c : Connection) :
    (c.episodes.map (·.1)).Pairwise fun i j =>
      c.projectRefs.idxOf i < c.projectRefs.idxOf j := by
  unfold episodes
  rw [List.pairwise_map, List.pairwise_filterMap]
  refine (pairwise_eraseDups c.projectRefs).imp ?_
  intro i j hij e he f hf
  rw [(episodeAt?_eq_some.mp he).1, (episodeAt?_eq_some.mp hf).1]
  exact hij

/-- No episode is there twice. -/
theorem nodup_episodes (c : Connection) : (c.episodes.map (·.1)).Nodup := by
  refine (pairwise_episodes c).imp ?_
  intro i j hij heq
  subst heq
  exact Nat.lt_irrefl _ hij

/-- The episode at a position is one. -/
theorem eq_of_mem_episodes {c : Connection} {d e : Nat × Record} (hd : d ∈ c.episodes)
    (he : e ∈ c.episodes) (h : d.1 = e.1) : d = e := by
  rcases mem_episodes.mp hd with ⟨-, old, hold⟩
  rcases mem_episodes.mp he with ⟨-, old', hold'⟩
  rw [h, hold'] at hold
  simp only [Option.some.injEq, Project.episode.injEq] at hold
  exact Prod.ext h hold.1.symm

/-- An episode is found by its position. -/
theorem lookup_episodes {c : Connection} {i : Nat} {r : Record} :
    c.episodes.lookup i = some r ↔ (i, r) ∈ c.episodes := by
  rw [List.lookup_eq_some_iff]
  constructor
  · rintro ⟨before, after, heq, -⟩
    rw [heq]
    simp
  · intro hmem
    rcases List.append_of_mem hmem with ⟨before, after, heq⟩
    refine ⟨before, after, heq, ?_⟩
    intro e he
    have hnodup := c.nodup_episodes
    rw [heq, List.map_append, List.map_cons, List.nodup_append] at hnodup
    have hne : e.1 ≠ i := hnodup.2.2 e.1 (List.mem_map_of_mem he) i List.mem_cons_self
    simpa using Ne.symm hne

/-! ## Replacing the show of an episode -/

@[simp]
theorem setParent_triples (c : Connection) (i : Nat) (parent : ParentShow) :
    (c.setParent i parent).triples = c.triples :=
  rfl

@[simp]
theorem setParent_people (c : Connection) (i : Nat) (parent : ParentShow) :
    (c.setParent i parent).people = c.people :=
  rfl

/-- Only the project at the position changes. -/
theorem setParent_projects (c : Connection) (i j : Nat) (parent : ParentShow) :
    (c.setParent i parent).projects[j]? =
      if i = j then c.projects[j]?.map (·.withParent parent) else c.projects[j]? := by
  simp only [setParent, List.getElem?_modify]
  split <;> simp

end Connection

/-! ## The show that an episode refers to -/

theorem Value.isNull_eq_false {v : Value} : v.isNull = false ↔ v ≠ .null := by
  cases v <;> simp [isNull]

namespace Project

/-- Whether an episode refers to the show of an id: under the current name, or under the older one
where the current one holds nothing. -/
inductive RefersTo (r : Record) : Value → Prop where
  | current {key : Value} (h : r.get? "show_id" = some key) (hkey : key ≠ .null) : RefersTo r key
  | older {key : Value} (hnone : r.get? "show_id" = none ∨ r.get? "show_id" = some .null)
      (h : r.get? "tv_show_id" = some key) (hkey : key ≠ .null) : RefersTo r key

theorem showReference_of_current {r : Record} {key : Value} (h : r.get? "show_id" = some key)
    (hkey : key ≠ .null) : showReference r = key := by
  simp [showReference, Record.populates, Record.getOrNull, h, Value.isNull_eq_false.mpr hkey]

theorem showReference_of_older {r : Record}
    (hnone : r.get? "show_id" = none ∨ r.get? "show_id" = some .null) :
    showReference r = (r.get? "tv_show_id").getD .null := by
  rcases hnone with h | h <;>
    simp [showReference, Record.populates, Record.getOrNull, h, Value.isNull]

/-- The show that an episode refers to is the one of its reference, if that is not null. -/
theorem refersTo_iff {r : Record} {key : Value} :
    RefersTo r key ↔ showReference r = key ∧ key ≠ .null := by
  constructor
  · intro h
    cases h with
    | current h hkey => exact ⟨showReference_of_current h hkey, hkey⟩
    | older hnone h hkey => exact ⟨by rw [showReference_of_older hnone, h]; rfl, hkey⟩
  · rintro ⟨rfl, hkey⟩
    by_cases hcurrent : ∃ key, r.get? "show_id" = some key ∧ key ≠ .null
    · obtain ⟨key, h, hne⟩ := hcurrent
      rw [showReference_of_current h hne]
      exact .current h hne
    · have hnone : r.get? "show_id" = none ∨ r.get? "show_id" = some .null := by
        cases h : r.get? "show_id" with
        | none => exact Or.inl rfl
        | some key => exact Or.inr (congrArg some (by_contra fun hne => hcurrent ⟨key, h, hne⟩))
      rw [showReference_of_older hnone] at hkey ⊢
      cases h : r.get? "tv_show_id" with
      | none => exact absurd (by rw [h]; rfl) hkey
      | some key =>
          rw [h] at hkey
          exact .older hnone h hkey

end Project

namespace Enrichment

variable {access : Access} {db : Database}

/-! ## The lookup of an episode -/

/-- The lookup of the show that an episode refers to. -/
def lookupOf (access : Access) (db : Database) (e : Nat × Record) : Lookup where
  position := e.1
  episodeId := Project.episodeId e.2
  reference := Project.showReference e.2
  exchange := access.showLookup db (Project.showReference e.2)

/-- Whether an episode refers to a show. -/
def refersToShow (r : Record) : Bool :=
  !(Project.showReference r).isNull

theorem lookups_eq (access : Access) (stores : Stores) (c : Connection) :
    lookups access stores c =
      (c.episodes.filter fun e => refersToShow e.2).map fun e =>
        lookupOf access (stores e.1) e :=
  rfl

theorem lookupOf_result (access : Access) (db : Database) (e : Nat × Record) :
    (lookupOf access db e).result = (access.lookUpShow db (Project.showReference e.2)).result :=
  rfl

/-- The failure with which the task of an episode ends, if it fails the enrichment. -/
def taskFailure? (access : Access) (db : Database) (e : Nat × Record) : Option Failure :=
  if refersToShow e.2 then (lookupOf access db e).failure? else none

/-- The show that an episode ends up with: none if it refers to no show, else what its own
lookup leaves it with. -/
def parentAfter (access : Access) (db : Database) (r : Record) (old : ParentShow) : ParentShow :=
  if refersToShow r then ((lookupOf access db (0, r)).parent?).getD old else .absent

/-! ## How the task of an episode ends -/

/-- How the task of an episode ends well: the show that the episode is left with, and the warnings
that are given. -/
inductive Attached (access : Access) (db : Database) (e : Nat × Record) :
    ParentShow → List Warning → Prop where
  | unreferenced (href : ∀ key, ¬ Project.RefersTo e.2 key) : Attached access db e .absent []
  | found {key : Value} {properties : Record} (href : Project.RefersTo e.2 key)
      (hshow : (access.lookUpShow db key).result = .ok (some properties)) :
      Attached access db e (.found properties) []
  | missing {key : Value} (href : Project.RefersTo e.2 key)
      (hshow : (access.lookUpShow db key).result = .ok none) :
      Attached access db e .absent [.missingShow (Project.episodeId e.2) key]
  | failed {key reported : Value} {fault : Fault} (href : Project.RefersTo e.2 key)
      (hshow : (access.lookUpShow db key).result = .error (.lookupFailed reported fault)) :
      Attached access db e .absent
        [.lookupFailed (Project.episodeId e.2) (.lookupFailed reported fault)]

/-- The task of an episode ends with a failure that is not the store's. -/
def Fails (access : Access) (db : Database) (e : Nat × Record) (f : Failure) : Prop :=
  ∃ key, Project.RefersTo e.2 key ∧ (access.lookUpShow db key).result = .error f ∧
    ∀ reported fault, f ≠ .lookupFailed reported fault

/-- The warnings that the task of an episode gives. -/
def taskWarnings (access : Access) (db : Database) (e : Nat × Record) : List Warning :=
  if refersToShow e.2 then (lookupOf access db e).warnings else []

theorem refersToShow_eq_true {r : Record} :
    refersToShow r = true ↔ Project.RefersTo r (Project.showReference r) := by
  rw [Project.refersTo_iff, ← Value.isNull_eq_false]
  simp [refersToShow]

theorem refersToShow_eq_false {r : Record} :
    refersToShow r = false ↔ ∀ key, ¬ Project.RefersTo r key := by
  rw [← Bool.not_eq_true, refersToShow_eq_true]
  constructor
  · intro h key hkey
    rw [(Project.refersTo_iff.mp hkey).1] at h
    exact h hkey
  · intro h
    exact h _

/-- A task fails with the failure that its lookup raises unexpectedly. -/
theorem taskFailure?_eq_some {e : Nat × Record} {f : Failure} :
    taskFailure? access db e = some f ↔ Fails access db e f := by
  unfold taskFailure?
  by_cases hrefers : refersToShow e.2 = true
  · have hfails : Fails access db e f ↔ (lookupOf access db e).result = .error f ∧
        ∀ reported fault, f ≠ .lookupFailed reported fault := by
      constructor
      · rintro ⟨key, hkey, hresult⟩
        rwa [lookupOf_result, (Project.refersTo_iff.mp hkey).1]
      · exact fun h => ⟨_, refersToShow_eq_true.mp hrefers, h⟩
    rw [if_pos hrefers, hfails]
    unfold Lookup.failure?
    cases hresult : (lookupOf access db e).result with
    | ok found => simp
    | error g =>
        cases g with
        | lookupFailed key fault =>
            simp only [reduceCtorEq, Except.error.injEq, false_iff, not_and]
            rintro rfl hnot
            exact hnot key fault rfl
        | _ =>
            simp only [Option.some.injEq, Except.error.injEq]
            constructor
            · rintro rfl
              exact ⟨rfl, fun _ _ h => nomatch h⟩
            · exact fun h => h.1
  · rw [if_neg hrefers]
    constructor
    · nofun
    · rintro ⟨key, hkey, -⟩
      exact absurd hkey (refersToShow_eq_false.mp (by simpa using hrefers) key)

theorem taskFailure?_eq_none {e : Nat × Record} :
    taskFailure? access db e = none ↔ ∀ f, ¬ Fails access db e f := by
  rw [Option.eq_none_iff_forall_ne_some]
  simp only [ne_eq, taskFailure?_eq_some]

/-- A task that does not fail ends well, whatever show its episode had before. -/
theorem attached_of_not_fails {e : Nat × Record} (h : ∀ f, ¬ Fails access db e f)
    (old : ParentShow) :
    Attached access db e (parentAfter access db e.2 old) (taskWarnings access db e) := by
  rw [← taskFailure?_eq_none] at h
  by_cases hrefers : refersToShow e.2 = true
  · have href := refersToShow_eq_true.mp hrefers
    rw [taskFailure?, if_pos hrefers] at h
    have hparent : parentAfter access db e.2 old =
        (lookupOf access db e).parent?.getD old := by
      rw [parentAfter, if_pos hrefers]
      rfl
    rw [hparent, taskWarnings, if_pos hrefers]
    unfold Lookup.failure? at h
    unfold Lookup.parent? Lookup.warnings
    cases hresult : (lookupOf access db e).result with
    | ok found =>
        cases found with
        | some properties => exact .found href hresult
        | none => exact .missing href hresult
    | error g =>
        rw [hresult] at h
        cases g with
        | lookupFailed key fault => exact .failed href hresult
        | _ => cases h
  · have hfalse : refersToShow e.2 = false := by simpa using hrefers
    rw [parentAfter, if_neg hrefers, taskWarnings, if_neg hrefers]
    exact .unreferenced (refersToShow_eq_false.mp hfalse)

/-- A task that fails leaves its episode with the show that it had. -/
theorem parentAfter_of_fails {e : Nat × Record} {f : Failure} (h : Fails access db e f)
    (old : ParentShow) : parentAfter access db e.2 old = old := by
  rcases h with ⟨key, hkey, hresult, hnot⟩
  obtain rfl := (Project.refersTo_iff.mp hkey).1
  rw [← lookupOf_result] at hresult
  have hparent : parentAfter access db e.2 old =
      (lookupOf access db e).parent?.getD old := by
    rw [parentAfter, if_pos (refersToShow_eq_true.mpr hkey)]
    rfl
  rw [hparent]
  unfold Lookup.parent?
  rw [hresult]
  cases f with
  | lookupFailed key fault => exact (hnot key fault rfl).elim
  | _ => rfl

/-- A task that ends well leaves no show pending. -/
theorem Attached.ne_pending {e : Nat × Record} {parent : ParentShow} {warnings : List Warning}
    (h : Attached access db e parent warnings) : parent ≠ .pending := by
  cases h <;> exact nofun

/-! ## Enriched projects -/

end Enrichment

/-- A project as an enrichment leaves it. -/
def Project.enriched (access : Access) (db : Database) : Project → Project
  | .movie r => .movie r
  | .episode r old => .episode r (Enrichment.parentAfter access db r old)

namespace Enrichment

/-- An episode without a show is enriched by having none. -/
theorem enriched_of_not_refersToShow (access : Access) (db : Database) {r : Record}
    (h : refersToShow r = false) (old : ParentShow) :
    (Project.episode r old).enriched access db = .episode r .absent := by
  simp [Project.enriched, parentAfter, h]

theorem settle_connection_of_some {p : Progress} {l : Lookup} {parent : ParentShow}
    (h : l.parent? = some parent) :
    (p.settle l).connection = p.connection.setParent l.position parent := by
  simp [Progress.settle, h]

theorem settle_connection_of_none {p : Progress} {l : Lookup} (h : l.parent? = none) :
    (p.settle l).connection = p.connection := by
  simp [Progress.settle, h]

theorem settle_people (p : Progress) (l : Lookup) :
    (p.settle l).connection.people = p.connection.people := by
  cases h : l.parent? with
  | none => rw [settle_connection_of_none h]
  | some parent => rw [settle_connection_of_some h, Connection.setParent_people]

theorem settle_triples (p : Progress) (l : Lookup) :
    (p.settle l).connection.triples = p.connection.triples := by
  cases h : l.parent? with
  | none => rw [settle_connection_of_none h]
  | some parent => rw [settle_connection_of_some h, Connection.setParent_triples]

/-- What comes of the lookup of an episode enriches that episode and changes no other project. -/
theorem settle_projects {access : Access} {stores : Stores} {p : Progress} {e : Nat × Record}
    {old : ParentShow} (hrefers : refersToShow e.2 = true)
    (he : p.connection.projects[e.1]? = some (.episode e.2 old)) (j : Nat) :
    (p.settle (lookupOf access (stores e.1) e)).connection.projects[j]? =
      if e.1 = j then p.connection.projects[j]?.map (Project.enriched access (stores j))
      else p.connection.projects[j]? := by
  have henriched : (Project.episode e.2 old).enriched access (stores e.1) =
      .episode e.2 ((lookupOf access (stores e.1) e).parent?.getD old) := by
    simp only [Project.enriched, parentAfter, hrefers, if_true]
    rfl
  cases hparent : (lookupOf access (stores e.1) e).parent? with
  | none =>
      rw [settle_connection_of_none hparent]
      rw [hparent] at henriched
      by_cases hj : e.1 = j
      · subst hj
        rw [if_pos rfl, he, Option.map_some, henriched]
        rfl
      · rw [if_neg hj]
  | some parent =>
      rw [settle_connection_of_some hparent, Connection.setParent_projects]
      rw [hparent] at henriched
      change (if e.1 = j then _ else _) = _
      by_cases hj : e.1 = j
      · subst hj
        rw [if_pos rfl, if_pos rfl, he, Option.map_some, Option.map_some, henriched]
        rfl
      · rw [if_neg hj, if_neg hj]

end Enrichment

end Costar
