import Costar.Proofs.Enrichment.Orders

/-!
# What an enrichment comes to

The tasks of an enrichment may take their turns in any order.  Whatever the order, once all of them
have settled they have asked for and warned of the same, up to the order in which they have done so,
and they leave the same connection and the same failure to report.

Main results:

- Theorem `Logged.after`: what the tasks have asked for and warned of at any moment.
- Definition `ComesTo`: the outcomes of an enrichment in all orders.
- Theorem `ComesTo.eq`: what they have in common.
-/

namespace Costar
namespace Enrichment

variable {access : Access} {stores : Stores} {concurrency : Int} {c : Connection}

/-! ## What the tasks ask for and warn of -/

/-- What the task of an episode asks for. -/
def taskQueries (access : Access) (db : Database) (e : Nat × Record) : List Query :=
  if refersToShow e.2 then [(lookupOf access db e).exchange.query] else []

/-- What a task at a stage has asked for. -/
def Stage.queries (access : Access) (stores : Stores) (stage : Stage) (e : Nat × Record) :
    List Query :=
  match stage with
  | .waiting => []
  | _ => taskQueries access (stores e.1) e

/-- What a task at a stage has warned of. -/
def Stage.warnings (access : Access) (stores : Stores) (stage : Stage) (e : Nat × Record) :
    List Warning :=
  match stage with
  | .settled _ => taskWarnings access (stores e.1) e
  | _ => []

/-- At every moment the tasks together have asked for and warned of what each of them has. -/
structure Logged (access : Access) (stores : Stores) (c : Connection) (s : State) : Prop where
  queries : (Log.queriesOf s.progress.events).Perm
    (c.episodes.flatMap fun e => (s.stage e.1).queries access stores e)
  warnings : s.progress.warnings.Perm
    (c.episodes.flatMap fun e => (s.stage e.1).warnings access stores e)

/-- What a task adds by moving to another stage is added to what all tasks have together. -/
theorem perm_flatMap_update {β : Type} {e : Nat × Record} (he : e ∈ c.episodes)
    {stage : Nat → Stage} {next : Stage} {f : Stage → Nat × Record → List β} {added : List β}
    (hadded : f next e = f (stage e.1) e ++ added) :
    ((c.episodes.flatMap fun d => f (stage d.1) d) ++ added).Perm
      (c.episodes.flatMap fun d => f (Function.update stage e.1 next d.1) d) := by
  rcases State.map_update c.nodup_episodes he stage next with ⟨before, after, hsplit, hmap⟩
  rw [List.flatMap_def, List.flatMap_def, hmap f, hadded, hsplit]
  simp only [List.map_append, List.map_cons, List.flatten_append, List.flatten_cons,
    List.append_assoc, List.perm_append_left_iff]
  exact List.perm_append_comm

namespace Logged

theorem initial (access : Access) (stores : Stores) (concurrency : Int) (c : Connection) :
    Logged access stores c (State.initial concurrency c) where
  queries := by simp [State.initial, Stage.queries, Log.queriesOf]
  warnings := by simp [State.initial, Stage.warnings]

/-- A task that takes one step adds to the log what that step asks for and warns of. -/
theorem step {s t : State} (log : Logged access stores c s) {e : Nat × Record}
    (he : e ∈ c.episodes) (next : Stage) (queries : List Query) (warnings : List Warning)
    (hstage : t.stage = Function.update s.stage e.1 next)
    (hevents : Log.queriesOf t.progress.events = Log.queriesOf s.progress.events ++ queries)
    (hwarnings : t.progress.warnings = s.progress.warnings ++ warnings)
    (hqueries : next.queries access stores e = (s.stage e.1).queries access stores e ++ queries)
    (hwarned : next.warnings access stores e = (s.stage e.1).warnings access stores e ++ warnings) :
    Logged access stores c t where
  queries := by
    rw [hevents, hstage]
    exact (log.queries.append_right queries).trans (perm_flatMap_update he hqueries)
  warnings := by
    rw [hwarnings, hstage]
    exact (log.warnings.append_right warnings).trans (perm_flatMap_update he hwarned)

/-- Every turn keeps the log. -/
theorem turn {s : State} (log : Logged access stores c s)
    (inv : Invariant access stores concurrency c s) (i : Nat) :
    Logged access stores c (s.turn access stores c.episodes i) := by
  rcases s.turn_cases access stores c.episodes i with hsame | ⟨r, htask, hcases⟩
  · rw [hsame]
    exact log
  · have he : (i, r) ∈ c.episodes := Connection.lookup_episodes.mp htask
    rcases hcases with ⟨hstage, hrefers, hturn⟩ | ⟨hstage, hrefers, -, hturn⟩ | ⟨hstage, hturn⟩
    · -- without a show the task settles at once
      rw [hturn]
      apply log.step he (.settled none) [] [] rfl
      · simp [State.skip]
      · simp [State.skip]
      · simp [Stage.queries, taskQueries, hstage, hrefers]
      · simp [Stage.warnings, taskWarnings, hstage, hrefers]
    · rw [hturn]
      apply log.step he .underWay [(lookupOf access (stores i) (i, r)).exchange.query] [] rfl
      · simp [State.start]
      · simp [State.start]
      · simp [Stage.queries, taskQueries, hstage, hrefers]
      · simp [Stage.warnings, hstage]
    · have hrefers := inv.refers (i, r) he hstage
      rw [hturn]
      apply log.step he (.settled (lookupOf access (stores i) (i, r)).failure?) []
        (lookupOf access (stores i) (i, r)).warnings rfl
      · simp [State.finish, Progress.settle]
      · simp [State.finish, Progress.settle]
      · simp [Stage.queries, hstage]
      · simp [Stage.warnings, taskWarnings, hstage, hrefers]

/-- The log is kept along every order of turns. -/
theorem after (access : Access) (stores : Stores) (concurrency : Int) (c : Connection)
    (order : List Nat) : Logged access stores c (State.after access stores concurrency c order) := by
  induction order using List.reverseRecOn with
  | nil => exact initial access stores concurrency c
  | append_singleton order i ih =>
      have hafter : State.after access stores concurrency c (order ++ [i]) =
          (State.after access stores concurrency c order).turn access stores c.episodes i :=
        List.foldl_concat ..
      rw [hafter]
      exact ih.turn (Invariant.after access stores concurrency c order) i

/-- When all tasks have settled, each has asked for and warned of all that it is to. -/
theorem of_isOver {s : State} (log : Logged access stores c s) (h : s.isOver c.episodes = true) :
    (Log.queriesOf s.progress.events).Perm
        (c.episodes.flatMap fun e => taskQueries access (stores e.1) e) ∧
      s.progress.warnings.Perm
        (c.episodes.flatMap fun e => taskWarnings access (stores e.1) e) := by
  have hsettled := State.isOver_iff.mp h
  have hqueries : (c.episodes.flatMap fun e => (s.stage e.1).queries access stores e) =
      c.episodes.flatMap fun e => taskQueries access (stores e.1) e := by
    apply List.flatMap_congr
    intro e he
    rcases hsettled e he with ⟨f, hf⟩
    simp [hf, Stage.queries]
  have hwarnings : (c.episodes.flatMap fun e => (s.stage e.1).warnings access stores e) =
      c.episodes.flatMap fun e => taskWarnings access (stores e.1) e := by
    apply List.flatMap_congr
    intro e he
    rcases hsettled e he with ⟨f, hf⟩
    simp [hf, Stage.warnings]
  exact ⟨hqueries ▸ log.queries, hwarnings ▸ log.warnings⟩

end Logged

/-! ## What an enrichment comes to -/

/-- The tasks of an enrichment come to an outcome in one of the orders of their turns. -/
def ComesTo (access : Access) (stores : Stores) (concurrency : Int) (c : Connection)
    (o : Outcome) : Prop :=
  ∃ order, (State.after access stores concurrency c order).outcome? c.episodes = some o

/-- What an enrichment comes to is determined by the episodes. -/
theorem ComesTo.eq {o : Outcome} (h : ComesTo access stores concurrency c o) :
    o.connection = c.enriched access stores ∧
      (Log.queriesOf o.run.events).Perm
        (c.episodes.flatMap fun e => taskQueries access (stores e.1) e) ∧
      o.run.warnings.Perm (c.episodes.flatMap fun e => taskWarnings access (stores e.1) e) ∧
      o.run.result = resultOf access stores c := by
  rcases h with ⟨order, horder⟩
  rcases (Invariant.after access stores concurrency c order).eq_of_outcome? horder with ⟨hover, rfl⟩
  rcases (Logged.after access stores concurrency c order).of_isOver hover with ⟨hqueries, hwarnings⟩
  exact ⟨rfl, hqueries, hwarnings, rfl⟩

end Enrichment

end Costar
