import Costar.Graph.Store
import Costar.Proofs.Enrichment.Lookups
import Mathlib.Data.List.Nodup

/-!
# Enriching again, and in another arrangement

An enrichment that is made a second time asks for the same shows, gives the same warnings, ends in
the same way and changes nothing, even if the first one has failed.  And it does not matter how the
triples are arranged that refer to the episodes: as long as they refer to the same ones, every
episode ends up with the same show, and the same shows are asked for.

The tasks of an enrichment may take their turns in any order.  So what they ask for and warn of is
compared without its order, except for the order in which `enrich` runs.

Main results:

- Theorem `Connection.enriched_enriched`: what has been enriched does not change again.
- Theorem `Connection.SameEpisodes.perm_episodes`: arrangements of the same episodes.
- Theorem `Enrichment.enrich_again_and_rearranged`: all of it together.
-/

namespace Costar

/-! ## Enriching twice -/

namespace Enrichment

theorem parentAfter_parentAfter {access : Access} {db : Database} (r : Record) (old : ParentShow) :
    parentAfter access db r (parentAfter access db r old) = parentAfter access db r old := by
  unfold parentAfter
  by_cases hrefers : refersToShow r = true
  · simp only [if_pos hrefers]
    cases (lookupOf access db (0, r)).parent? <;> rfl
  · simp only [if_neg hrefers]

end Enrichment

theorem Project.enriched_enriched (access : Access) (db : Database) (p : Project) :
    (p.enriched access db).enriched access db = p.enriched access db := by
  cases p with
  | movie r => rfl
  | episode r old => simp [enriched, Enrichment.parentAfter_parentAfter]

namespace Connection

variable {access : Access} {stores : Enrichment.Stores} {c d : Connection}

theorem projects_enriched (i : Nat) : (c.enriched access stores).projects[i]? =
    c.projects[i]?.map fun p => if i ∈ c.projectRefs then p.enriched access (stores i) else p := by
  rw [enriched, List.getElem?_mapIdx]

/-- Enriching replaces no episode. -/
theorem episodes_enriched (access : Access) (stores : Enrichment.Stores) (c : Connection) :
    (c.enriched access stores).episodes = c.episodes := by
  have hat : (c.enriched access stores).episodeAt? = c.episodeAt? := by
    funext i
    unfold episodeAt?
    rw [projects_enriched]
    cases c.projects[i]? with
    | none => rfl
    | some p =>
        by_cases href : i ∈ c.projectRefs <;> cases p <;> simp [href, Project.enriched]
  unfold episodes
  rw [hat]
  rfl

/-- A connection that has been enriched does not change when it is enriched again. -/
theorem enriched_enriched (access : Access) (stores : Enrichment.Stores) (c : Connection) :
    (c.enriched access stores).enriched access stores = c.enriched access stores := by
  have hprojects : ((c.enriched access stores).enriched access stores).projects =
      (c.enriched access stores).projects := by
    apply List.ext_getElem?
    intro i
    have hrefs : (c.enriched access stores).projectRefs = c.projectRefs := rfl
    rw [projects_enriched, projects_enriched, hrefs, Option.map_map]
    congr 1
    funext p
    by_cases href : i ∈ c.projectRefs <;> simp [href, Project.enriched_enriched]
  exact congrArg (fun projects => Connection.mk c.people projects c.triples) hprojects

end Connection

namespace Enrichment

variable {access : Access} {stores : Stores} {timing : Timing} {concurrency concurrency' : Int}
variable {c d : Connection}

/-! ## What a second enrichment comes to -/

/-- Two runs ask for the same and warn of the same, in whatever order, and end in the same way. -/
structure SameRun (r s : Run Unit) : Prop where
  queries : (Log.queriesOf r.events).Perm (Log.queriesOf s.events)
  warnings : r.warnings.Perm s.warnings
  result : r.result = s.result

/-- An enrichment made again, in whatever order, comes to the same. -/
theorem ComesTo.again {o again : Outcome} (h : ComesTo access stores concurrency c o)
    (hagain : ComesTo access stores concurrency' o.connection again) :
    again.connection = o.connection ∧ SameRun again.run o.run := by
  rcases h.eq with ⟨hconnection, hqueries, hwarnings, hresult⟩
  rw [hconnection] at hagain ⊢
  rcases hagain.eq with ⟨hconnection', hqueries', hwarnings', hresult'⟩
  rw [c.episodes_enriched] at hqueries' hwarnings'
  refine ⟨hconnection'.trans (c.enriched_enriched access stores), ?_, ?_, ?_⟩
  · exact hqueries'.trans hqueries.symm
  · exact hwarnings'.trans hwarnings.symm
  · rw [hresult', hresult]
    unfold resultOf
    rw [c.episodes_enriched]

/-- What is asked and warned of along a schedule does not depend on the connection. -/
theorem foldl_advance_congr (ls : List Lookup) (schedule : Schedule) {p q : Progress}
    (hevents : p.events = q.events) (hwarnings : p.warnings = q.warnings) :
    (schedule.foldl (Progress.advance ls) p).events =
        (schedule.foldl (Progress.advance ls) q).events ∧
      (schedule.foldl (Progress.advance ls) p).warnings =
        (schedule.foldl (Progress.advance ls) q).warnings := by
  induction schedule generalizing p q with
  | nil => exact ⟨hevents, hwarnings⟩
  | cons move rest ih =>
      apply ih
      · cases move <;> simp only [Progress.advance] <;> split <;>
          simp [Progress.settle, hevents]
      · cases move <;> simp only [Progress.advance] <;> split <;>
          simp [Progress.settle, hwarnings]

/-- The run of an enrichment depends on the episodes of the connection only. -/
theorem enrich_run_congr (h : c.episodes = d.episodes) :
    (enrich access stores timing concurrency c).run = (enrich access stores timing concurrency d).run := by
  have hlookups : lookups access stores c = lookups access stores d := by
    rw [lookups_eq, lookups_eq, h]
  unfold enrich along
  rw [hlookups]
  obtain ⟨hevents, hwarnings⟩ := foldl_advance_congr (lookups access stores d)
    (timing.schedule (limit concurrency) (lookups access stores d).length)
    (p := { connection := (unreferenced c).foldl (fun acc i => acc.setParent i .absent) c })
    (q := { connection := (unreferenced d).foldl (fun acc i => acc.setParent i .absent) d })
    rfl rfl
  simp only [hevents, hwarnings]

/-- When `enrich` runs again, everything happens in the same order as before. -/
theorem enrich_enrich (access : Access) (stores : Stores) (timing : Timing) (concurrency : Int)
    (c : Connection) :
    enrich access stores timing concurrency (enrich access stores timing concurrency c).connection =
      enrich access stores timing concurrency c := by
  have hconnection := (enrich_eq access stores timing concurrency c).1
  have hagain := (enrich_eq access stores timing concurrency (c.enriched access stores)).1
  rw [Connection.enriched_enriched, ← hconnection] at hagain
  have hrun : (enrich access stores timing concurrency (enrich access stores timing concurrency c).connection).run =
      (enrich access stores timing concurrency c).run := by
    apply enrich_run_congr
    rw [hconnection, Connection.episodes_enriched]
  calc enrich access stores timing concurrency (enrich access stores timing concurrency c).connection
      = ⟨(enrich access stores timing concurrency (enrich access stores timing concurrency c).connection).connection,
          (enrich access stores timing concurrency (enrich access stores timing concurrency c).connection).run⟩ := rfl
    _ = ⟨(enrich access stores timing concurrency c).connection,
          (enrich access stores timing concurrency c).run⟩ := by rw [hrun, hagain]
    _ = enrich access stores timing concurrency c := rfl

end Enrichment

/-! ## Other arrangements of the same episodes -/

namespace Connection

variable {access : Access} {stores : Enrichment.Stores} {c d : Connection}

/-- The triples of two connections refer to the same episodes of the same projects, in whatever
order, however often, and among whatever movies and people. -/
structure SameEpisodes (c d : Connection) : Prop where
  projects : c.projects = d.projects
  refs : ∀ i r parent, c.projects[i]? = some (.episode r parent) →
    (i ∈ c.projectRefs ↔ i ∈ d.projectRefs)

namespace SameEpisodes

theorem mem_episodes_iff (h : c.SameEpisodes d) (e : Nat × Record) :
    e ∈ c.episodes ↔ e ∈ d.episodes := by
  rcases e with ⟨i, r⟩
  rw [mem_episodes, mem_episodes, ← h.projects]
  apply and_congr_left
  rintro ⟨parent, hproject⟩
  exact h.refs i r parent hproject

/-- The episodes to work on are the same up to their order. -/
theorem perm_episodes (h : c.SameEpisodes d) : c.episodes.Perm d.episodes := by
  have hc : c.episodes.Nodup := List.Nodup.of_map (·.1) c.nodup_episodes
  have hd : d.episodes.Nodup := List.Nodup.of_map (·.1) d.nodup_episodes
  rw [List.perm_ext_iff_of_nodup hc hd]
  exact h.mem_episodes_iff

/-- The same projects are enriched. -/
theorem projects_enriched_eq (h : c.SameEpisodes d) :
    (c.enriched access stores).projects = (d.enriched access stores).projects := by
  apply List.ext_getElem?
  intro i
  rw [projects_enriched, projects_enriched, ← h.projects]
  cases hproject : c.projects[i]? with
  | none => rfl
  | some project =>
      cases project with
      | movie r => simp [Project.enriched]
      | episode r parent => simp [h.refs i r parent hproject]

/-- One arrangement is enriched without failure if the other is. -/
theorem resultOf_eq_ok_iff (h : c.SameEpisodes d) :
    Enrichment.resultOf access stores c = .ok () ↔ Enrichment.resultOf access stores d = .ok () := by
  simp only [Enrichment.resultOf_eq_ok, h.mem_episodes_iff]

end SameEpisodes
end Connection

namespace Enrichment

/-- An enrichment can always be made a second time.  In whatever order the tasks take their turns
in the first and in the second, and whether or not the first has failed, the second asks for the
same shows, gives the same warnings, ends with the same result or failure and leaves everything as
the first has left it.  With the same timing even the log is the same.  An enrichment of
triples that refer to the same episodes in another arrangement leaves every episode with the same
show, asks for the same shows, gives the same warnings, and succeeds if the other does. -/
theorem enrich_again_and_rearranged (access : Access) (stores : Stores) (timing : Timing)
    (concurrency concurrency' : Int) (c : Connection) :
    ComesTo access stores concurrency c (enrich access stores timing concurrency c) ∧
      enrich access stores timing concurrency (enrich access stores timing concurrency c).connection =
        enrich access stores timing concurrency c ∧
      ∀ o, ComesTo access stores concurrency c o →
        (∀ again, ComesTo access stores concurrency' o.connection again →
          again.connection = o.connection ∧ SameRun again.run o.run) ∧
        ∀ d other, c.SameEpisodes d → ComesTo access stores concurrency' d other →
          other.connection.projects = o.connection.projects ∧
            (Log.queriesOf other.run.events).Perm (Log.queriesOf o.run.events) ∧
            other.run.warnings.Perm o.run.warnings ∧
            (other.run.result = .ok () ↔ o.run.result = .ok ()) := by
  refine ⟨exists_order_enrich access stores timing concurrency c,
    enrich_enrich access stores timing concurrency c, ?_⟩
  intro o ho
  refine ⟨fun again hagain => ho.again hagain, ?_⟩
  intro d other hsame hother
  rcases ho.eq with ⟨hconnection, hqueries, hwarnings, hresult⟩
  rcases hother.eq with ⟨hconnection', hqueries', hwarnings', hresult'⟩
  refine ⟨?_, ?_, ?_, ?_⟩
  · rw [hconnection, hconnection', hsame.projects_enriched_eq]
  · exact hqueries'.trans ((hsame.perm_episodes.symm.flatMap_right _).trans hqueries.symm)
  · exact hwarnings'.trans ((hsame.perm_episodes.symm.flatMap_right _).trans hwarnings.symm)
  · rw [hresult, hresult', hsame.resultOf_eq_ok_iff]

/-- Two episodes, of which one refers to a show that is stored and one to a show that is not. -/
def twoEpisodes (triples : List Nat) : Connection where
  people := [[("person_id", .int 1)]]
  projects := [.episode [("episode_id", .int 1), ("show_id", .int 8)] .pending,
    .movie [("movie_id", .int 7)], .episode [("episode_id", .int 2), ("show_id", .int 9)] .pending]
  triples := triples.map fun i => ⟨0, .cast [], i⟩

/-- The episodes are enriched with the same shows whether the triples refer to each of them once
or to one of them again, after the other and next to a movie: the one that is stored is attached,
and both are looked up, in the order in which the triples come to their episodes. -/
theorem enrich_twoEpisodes_rearranged :
    let access : Access := ⟨none, .int 5⟩
    let stores : Stores := fun _ =>
      Store.database { shows := [⟨.int 8, some [("name", .text "Riget")], none⟩] }
    let show8 : Query := ⟨.showLookup, [("tv_id", .int 8)], .int 5⟩
    let show9 : Query := ⟨.showLookup, [("tv_id", .int 9)], .int 5⟩
    let c := twoEpisodes [0, 2]
    let d := twoEpisodes [2, 1, 0, 2]
    let once := enrich access stores .inOrder 1 c
    let other := enrich access stores .inOrder 1 d
    c.SameEpisodes d ∧
      once.connection.projects = [
        .episode [("episode_id", .int 1), ("show_id", .int 8)] (.found [("name", .text "Riget")]),
        .movie [("movie_id", .int 7)],
        .episode [("episode_id", .int 2), ("show_id", .int 9)] .absent] ∧
      Log.queriesOf once.run.events = [show8, show9] ∧
      (enrich access stores .inOrder 1 once.connection).connection = once.connection ∧
      other.connection.projects = once.connection.projects ∧
      Log.queriesOf other.run.events = [show9, show8] ∧
      (Log.queriesOf other.run.events).Perm (Log.queriesOf once.run.events) := by
  intro access stores show8 show9 c d once other
  have hsame : c.SameEpisodes d := by
    refine ⟨rfl, ?_⟩
    intro i r parent hproject
    match i with
    | 0 => decide
    | 1 => cases hproject
    | 2 => decide
    | _ + 3 => cases hproject
  rcases enrich_again_and_rearranged access stores .inOrder 1 1 c with ⟨hcomes, -, hall⟩
  rcases hall once hcomes with ⟨hagain, hother⟩
  rcases hother d other hsame (exists_order_enrich access stores .inOrder 1 d) with
    ⟨hprojects, hqueries, -, -⟩
  have hrepeated := (hagain _ (exists_order_enrich access stores .inOrder 1 _)).1
  exact ⟨hsame, rfl, rfl, hrepeated, hprojects, rfl, hqueries⟩

end Enrichment

end Costar
