import Costar.Proofs.Enrichment.Attachment
import Costar.Proofs.Log
import Mathlib.Algebra.Ring.Nat
import Mathlib.Logic.Function.Basic

/-!
# Enrichment in turns

The lookups of an enrichment run side by side.  Every episode has a task of its own, which waits
for a permit, asks for the show, and attaches what came of it.  The tasks take turns, and nothing
is said about who has the next turn: an order is any list of episodes.  A task that waits while
no permit is free spends its turn waiting.

Main results:

- Theorem `Invariant.turn`: every turn keeps the invariant of the tasks.
- Theorem `Invariant.after`: hence it holds after every order of turns.
- Theorem `exists_next`: as long as a task has not settled, some turn brings one further.
-/

namespace Costar
namespace Enrichment

/-! ## Tasks -/

/-- How far the task of an episode has come. -/
inductive Stage where
  | waiting
  | underWay
  | settled (failure : Option Failure)

namespace Stage

/-- Whether the lookup of a task is under way. -/
def isUnderWay : Stage → Bool
  | .underWay => true
  | _ => false

/-- Whether a task has come to its end. -/
def isSettled : Stage → Bool
  | .settled _ => true
  | _ => false

/-- The number of steps that a task is away from its end. -/
def stepsLeft : Stage → Nat
  | .waiting => 2
  | .underWay => 1
  | .settled _ => 0

/-- The failure that a task has ended with. -/
def failure? : Stage → Option Failure
  | .settled failure => failure
  | _ => none

end Stage

/-- The tasks of an enrichment at a moment: what they have done together, how far each has come,
and the permits for lookups that are free. -/
structure State where
  progress : Progress
  stage : Nat → Stage
  permits : Nat

namespace State

/-- The tasks before the first turn. -/
def initial (concurrency : Int) (c : Connection) : State where
  progress := { connection := c }
  stage _ := .waiting
  permits := limit concurrency

/-- The task of an episode without a show settles. -/
def skip (s : State) (i : Nat) : State where
  progress := { s.progress with connection := s.progress.connection.setParent i .absent }
  stage := Function.update s.stage i (.settled none)
  permits := s.permits

/-- A task takes a permit and asks for its show. -/
def start (s : State) (l : Lookup) : State where
  progress := { s.progress with events := s.progress.events ++ l.exchange.start }
  stage := Function.update s.stage l.position .underWay
  permits := s.permits - 1

/-- The reply to a task's lookup is in: the task gives its permit back and settles. -/
def finish (s : State) (l : Lookup) : State where
  progress := s.progress.settle l
  stage := Function.update s.stage l.position (.settled l.failure?)
  permits := s.permits + 1

/-- The task of the episode at a position has a turn. -/
def turn (access : Access) (stores : Stores) (tasks : List (Nat × Record)) (s : State) (i : Nat) :
    State :=
  match tasks.lookup i, s.stage i with
  | some r, .waiting =>
    if refersToShow r then
      if s.permits = 0 then s else s.start (lookupOf access (stores i) (i, r))
    else s.skip i
  | some r, .underWay => s.finish (lookupOf access (stores i) (i, r))
  | _, _ => s

/-- The tasks after an order of turns. -/
def after (access : Access) (stores : Stores) (concurrency : Int) (c : Connection)
    (order : List Nat) : State :=
  order.foldl (turn access stores c.episodes) (initial concurrency c)

/-- The number of lookups under way. -/
def underWay (tasks : List (Nat × Record)) (s : State) : Nat :=
  (tasks.map fun e => (s.stage e.1).isUnderWay.toNat).sum

/-- The number of steps that all tasks together are away from their ends. -/
def stepsLeft (tasks : List (Nat × Record)) (s : State) : Nat :=
  (tasks.map fun e => (s.stage e.1).stepsLeft).sum

/-- Whether all tasks have settled. -/
def isOver (tasks : List (Nat × Record)) (s : State) : Bool :=
  tasks.all fun e => (s.stage e.1).isSettled

/-- The failure to report: that of the first task that has one. -/
def failure? (tasks : List (Nat × Record)) (s : State) : Option Failure :=
  tasks.findSome? fun e => (s.stage e.1).failure?

/-- What the enrichment comes to; nothing as long as a task has not settled. -/
def outcome? (tasks : List (Nat × Record)) (s : State) : Option Outcome :=
  if s.isOver tasks then
    let result :=
      match s.failure? tasks with
      | some f => .error f
      | none => .ok ()
    some ⟨s.progress.connection, ⟨s.progress.events, s.progress.warnings, result⟩⟩
  else none

/-! ## What one turn can do -/

/-- A turn does nothing, or brings the task that has it one step further. -/
theorem turn_cases (access : Access) (stores : Stores) (tasks : List (Nat × Record)) (s : State)
    (i : Nat) :
    s.turn access stores tasks i = s ∨
      ∃ r, tasks.lookup i = some r ∧
        ((s.stage i = .waiting ∧ refersToShow r = false ∧
            s.turn access stores tasks i = s.skip i) ∨
          (s.stage i = .waiting ∧ refersToShow r = true ∧ 0 < s.permits ∧
            s.turn access stores tasks i = s.start (lookupOf access (stores i) (i, r))) ∨
          (s.stage i = .underWay ∧
            s.turn access stores tasks i = s.finish (lookupOf access (stores i) (i, r)))) := by
  cases htask : tasks.lookup i with
  | none => exact Or.inl (by simp [turn, htask])
  | some r =>
      cases hstage : s.stage i with
      | waiting =>
          by_cases hrefers : refersToShow r = true
          · by_cases hpermits : s.permits = 0
            · exact Or.inl (by simp [turn, htask, hstage, hrefers, hpermits])
            · refine Or.inr ⟨r, rfl, Or.inr (Or.inl ⟨rfl, hrefers, by omega, ?_⟩)⟩
              simp [turn, htask, hstage, hrefers, hpermits]
          · have hfalse : refersToShow r = false := by simpa using hrefers
            exact Or.inr ⟨r, rfl, Or.inl ⟨rfl, hfalse, by simp [turn, htask, hstage, hfalse]⟩⟩
      | underWay =>
          exact Or.inr ⟨r, rfl, Or.inr (Or.inr ⟨rfl, by simp [turn, htask, hstage]⟩)⟩
      | settled failure => exact Or.inl (by simp [turn, htask, hstage])

/-- Moving one task to another stage changes what is read off that task only. -/
theorem map_update {tasks : List (Nat × Record)} (hnodup : (tasks.map (·.1)).Nodup)
    {e : Nat × Record} (he : e ∈ tasks) (stage : Nat → Stage) (next : Stage) :
    ∃ before after, tasks = before ++ e :: after ∧
      ∀ {β : Type} (f : Stage → Nat × Record → β),
        (tasks.map fun d => f (Function.update stage e.1 next d.1) d) =
          (before.map fun d => f (stage d.1) d) ++
            f next e :: after.map fun d => f (stage d.1) d := by
  rcases List.append_of_mem he with ⟨before, after, rfl⟩
  refine ⟨before, after, rfl, ?_⟩
  rw [List.map_append, List.map_cons, List.nodup_append] at hnodup
  have hbefore : ∀ d ∈ before, Function.update stage e.1 next d.1 = stage d.1 := by
    intro d hd
    apply Function.update_of_ne
    exact hnodup.2.2 d.1 (List.mem_map_of_mem hd) e.1 List.mem_cons_self
  have hafter : ∀ d ∈ after, Function.update stage e.1 next d.1 = stage d.1 := by
    intro d hd
    apply Function.update_of_ne
    intro heq
    exact (List.nodup_cons.mp hnodup.2.1).1 (heq ▸ List.mem_map_of_mem hd)
  intro β f
  rw [List.map_append, List.map_cons, Function.update_self]
  congr 1
  · exact List.map_congr_left fun d hd => by rw [hbefore d hd]
  · congr 1
    exact List.map_congr_left fun d hd => by rw [hafter d hd]

/-- Moving one task to another stage changes a sum over all tasks by what that task adds to
it. -/
theorem sum_update {tasks : List (Nat × Record)} (hnodup : (tasks.map (·.1)).Nodup)
    {e : Nat × Record} (he : e ∈ tasks) (weight : Stage → Nat) (stage : Nat → Stage)
    (next : Stage) :
    (tasks.map fun d => weight (Function.update stage e.1 next d.1)).sum + weight (stage e.1) =
      (tasks.map fun d => weight (stage d.1)).sum + weight next := by
  rcases map_update hnodup he stage next with ⟨before, after, hsplit, hmap⟩
  rw [hmap fun stage _ => weight stage, hsplit]
  simp only [List.map_append, List.map_cons, List.sum_append_nat, List.sum_cons]
  omega

end State

/-! ## The invariant of the tasks -/

/-- What holds at every moment: the tasks that have settled have left their episodes enriched and
nothing else has changed, and each lookup under way holds a permit and has its session open. -/
structure Invariant (access : Access) (stores : Stores) (concurrency : Int) (c : Connection)
    (s : State) : Prop where
  people : s.progress.connection.people = c.people
  triples : s.progress.connection.triples = c.triples
  projects : ∀ j, s.progress.connection.projects[j]? =
    if (s.stage j).isSettled then c.projects[j]?.map (Project.enriched access (stores j))
    else c.projects[j]?
  tasks : ∀ j, (s.stage j).isSettled = true → ∃ r, (j, r) ∈ c.episodes
  refers : ∀ e ∈ c.episodes, s.stage e.1 = .underWay → refersToShow e.2 = true
  failures : ∀ e ∈ c.episodes, ∀ f, s.stage e.1 = .settled f → f = taskFailure? access (stores e.1) e
  permits : s.underWay c.episodes + s.permits = limit concurrency
  active : Log.activeFrom 0 s.progress.events = s.underWay c.episodes
  maxActive : Log.maxActiveFrom 0 s.progress.events ≤ limit concurrency
  unclosed : Log.unclosedOf s.progress.events = s.underWay c.episodes

namespace Invariant

variable {access : Access} {stores : Stores} {concurrency : Int} {c : Connection} {s : State}

theorem initial (access : Access) (stores : Stores) (concurrency : Int) (c : Connection) :
    Invariant access stores concurrency c (State.initial concurrency c) where
  people := rfl
  triples := rfl
  projects _ := rfl
  tasks _ h := nomatch h
  refers _ _ h := nomatch h
  failures _ _ _ h := nomatch h
  permits := by simp [State.underWay, State.initial, Stage.isUnderWay]
  active := by simp [State.underWay, State.initial, Stage.isUnderWay, Log.activeFrom]
  maxActive := by simp [State.initial, Log.maxActiveFrom]
  unclosed := by simp [State.underWay, State.initial, Stage.isUnderWay, Log.unclosedOf]

/-- The project of a task that has not settled is as it was in the beginning. -/
theorem project_of_not_settled (inv : Invariant access stores concurrency c s) {e : Nat × Record}
    (he : e ∈ c.episodes) (h : (s.stage e.1).isSettled = false) :
    ∃ old, c.projects[e.1]? = some (.episode e.2 old) ∧
      s.progress.connection.projects[e.1]? = some (.episode e.2 old) := by
  rcases Connection.mem_episodes.mp he with ⟨-, old, hold⟩
  refine ⟨old, hold, ?_⟩
  rw [inv.projects, h, ← hold]
  rfl

/-- The projects after one task has settled and enriched its own. -/
theorem projects_update (inv : Invariant access stores concurrency c s) {i : Nat}
    (h : (s.stage i).isSettled = false) {failure : Option Failure} {projects : List Project}
    (hprojects : ∀ j, projects[j]? =
      if i = j then s.progress.connection.projects[j]?.map (Project.enriched access (stores j))
      else s.progress.connection.projects[j]?) (j : Nat) :
    projects[j]? =
      if (Function.update s.stage i (.settled failure) j).isSettled then
        c.projects[j]?.map (Project.enriched access (stores j))
      else c.projects[j]? := by
  rw [hprojects]
  by_cases hj : i = j
  · subst hj
    rw [if_pos rfl, Function.update_self, inv.projects, h]
    rfl
  · rw [if_neg hj, Function.update_of_ne (Ne.symm hj), inv.projects]

theorem tasks_update (inv : Invariant access stores concurrency c s) {e : Nat × Record}
    (he : e ∈ c.episodes) (next : Stage) {j : Nat}
    (h : (Function.update s.stage e.1 next j).isSettled = true) : ∃ r, (j, r) ∈ c.episodes := by
  by_cases hj : j = e.1
  · subst hj
    exact ⟨e.2, he⟩
  · rw [Function.update_of_ne hj] at h
    exact inv.tasks j h

theorem refers_update (inv : Invariant access stores concurrency c s) {e : Nat × Record}
    (he : e ∈ c.episodes) (next : Stage) (hnext : next = .underWay → refersToShow e.2 = true)
    {d : Nat × Record} (hd : d ∈ c.episodes)
    (h : Function.update s.stage e.1 next d.1 = .underWay) : refersToShow d.2 = true := by
  by_cases hde : d.1 = e.1
  · rw [Connection.eq_of_mem_episodes hd he hde] at h ⊢
    rw [Function.update_self] at h
    exact hnext h
  · rw [Function.update_of_ne hde] at h
    exact inv.refers d hd h

theorem failures_update (inv : Invariant access stores concurrency c s) {e : Nat × Record}
    (he : e ∈ c.episodes) (next : Stage)
    (hnext : ∀ f, next = .settled f → f = taskFailure? access (stores e.1) e)
    {d : Nat × Record} (hd : d ∈ c.episodes) {f : Option Failure}
    (h : Function.update s.stage e.1 next d.1 = .settled f) : f = taskFailure? access (stores d.1) d := by
  by_cases hde : d.1 = e.1
  · rw [Connection.eq_of_mem_episodes hd he hde] at h ⊢
    rw [Function.update_self] at h
    exact hnext f h
  · rw [Function.update_of_ne hde] at h
    exact inv.failures d hd f h

/-- A task that settles without a show keeps the invariant. -/
theorem skip (inv : Invariant access stores concurrency c s) {e : Nat × Record}
    (he : e ∈ c.episodes) (hstage : s.stage e.1 = .waiting) (hrefers : refersToShow e.2 = false) :
    Invariant access stores concurrency c (s.skip e.1) := by
  have hwaiting : (s.stage e.1).isSettled = false := by rw [hstage]; rfl
  rcases inv.project_of_not_settled he hwaiting with ⟨old, -, hproject⟩
  have hcount : (s.skip e.1).underWay c.episodes = s.underWay c.episodes := by
    have h := State.sum_update c.nodup_episodes he (·.isUnderWay.toNat) s.stage (.settled none)
    rw [hstage] at h
    exact h
  have hprojects : ∀ j, (s.skip e.1).progress.connection.projects[j]? =
      if e.1 = j then s.progress.connection.projects[j]?.map (Project.enriched access (stores j))
      else s.progress.connection.projects[j]? := by
    intro j
    change (s.progress.connection.setParent e.1 .absent).projects[j]? = _
    rw [Connection.setParent_projects]
    by_cases hj : e.1 = j
    · subst hj
      rw [if_pos rfl, if_pos rfl, hproject, Option.map_some, Option.map_some,
        enriched_of_not_refersToShow access (stores e.1) hrefers]
      rfl
    · rw [if_neg hj, if_neg hj]
  refine ⟨inv.people, inv.triples, inv.projects_update hwaiting hprojects, ?_, ?_, ?_, ?_,
    ?_, inv.maxActive, ?_⟩
  · intro j
    exact inv.tasks_update he (.settled none)
  · intro d hd
    exact inv.refers_update he (.settled none) (fun h => nomatch h) hd
  · intro d hd f
    refine inv.failures_update he (.settled none) ?_ hd
    intro g hg
    cases hg
    simp [taskFailure?, hrefers]
  · rw [hcount]
    exact inv.permits
  · rw [hcount]
    exact inv.active
  · rw [hcount]
    exact inv.unclosed

/-- A task that starts its lookup keeps the invariant: it takes a permit that is free. -/
theorem start (inv : Invariant access stores concurrency c s) {e : Nat × Record}
    (he : e ∈ c.episodes) (hstage : s.stage e.1 = .waiting) (hrefers : refersToShow e.2 = true)
    (hpermits : 0 < s.permits) :
    Invariant access stores concurrency c (s.start (lookupOf access (stores e.1) e)) := by
  have hwaiting : (s.stage e.1).isSettled = false := by rw [hstage]; rfl
  have hcount : (s.start (lookupOf access (stores e.1) e)).underWay c.episodes =
      s.underWay c.episodes + 1 := by
    have h := State.sum_update c.nodup_episodes he (·.isUnderWay.toNat) s.stage .underWay
    rw [hstage] at h
    exact h
  have hlimit := inv.permits
  have hactive : ∀ n, Log.activeFrom n (lookupOf access (stores e.1) e).exchange.start = n + 1 :=
    fun n => rfl
  refine ⟨inv.people, inv.triples, ?_, ?_, ?_, ?_, ?_, ?_, ?_, ?_⟩
  · intro j
    change s.progress.connection.projects[j]? = _
    rw [inv.projects j]
    change _ = if (Function.update s.stage e.1 .underWay j).isSettled then _ else _
    by_cases hj : j = e.1
    · subst hj
      rw [Function.update_self, hwaiting]
      rfl
    · rw [Function.update_of_ne hj]
  · intro j
    exact inv.tasks_update he .underWay
  · intro d hd
    exact inv.refers_update he .underWay (fun _ => hrefers) hd
  · intro d hd f
    exact inv.failures_update he .underWay (fun _ h => nomatch h) hd
  · rw [hcount]
    change s.underWay c.episodes + 1 + (s.permits - 1) = _
    omega
  · rw [hcount]
    change Log.activeFrom 0 (s.progress.events ++ _) = _
    rw [Log.activeFrom_append, inv.active, hactive]
  · change Log.maxActiveFrom 0 (s.progress.events ++ _) ≤ _
    rw [Log.maxActiveFrom_append, inv.active]
    have hmax : Log.maxActiveFrom (s.underWay c.episodes) (lookupOf access (stores e.1) e).exchange.start =
        s.underWay c.episodes + 1 := by
      change max (s.underWay c.episodes)
        (max (s.underWay c.episodes) (s.underWay c.episodes + 1)) = _
      omega
    have := inv.maxActive
    omega
  · rw [hcount]
    change Log.unclosedOf (s.progress.events ++ _) = _
    rw [Log.unclosedOf_append, inv.unclosed, Exchange.unclosedOf_start]
    rfl

/-- A task whose lookup ends keeps the invariant: it enriches its episode and gives its permit
back. -/
theorem finish (inv : Invariant access stores concurrency c s) {e : Nat × Record}
    (he : e ∈ c.episodes) (hstage : s.stage e.1 = .underWay) :
    Invariant access stores concurrency c (s.finish (lookupOf access (stores e.1) e)) := by
  have hunder : (s.stage e.1).isSettled = false := by rw [hstage]; rfl
  have hrefers := inv.refers e he hstage
  rcases inv.project_of_not_settled he hunder with ⟨old, -, hproject⟩
  have hcount : (s.finish (lookupOf access (stores e.1) e)).underWay c.episodes + 1 =
      s.underWay c.episodes := by
    have h := State.sum_update c.nodup_episodes he (·.isUnderWay.toNat) s.stage
      (.settled (lookupOf access (stores e.1) e).failure?)
    rw [hstage] at h
    exact h
  have hlimit := inv.permits
  have hactive : ∀ n, Log.activeFrom n (lookupOf access (stores e.1) e).exchange.finish = n - 1 := by
    intro n
    rw [Exchange.finish_eq]
    rfl
  refine ⟨(settle_people _ _).trans inv.people, (settle_triples _ _).trans inv.triples,
    inv.projects_update hunder (settle_projects hrefers hproject), ?_, ?_, ?_, ?_, ?_, ?_, ?_⟩
  · intro j
    exact inv.tasks_update he (.settled (lookupOf access (stores e.1) e).failure?)
  · intro d hd
    exact inv.refers_update he (.settled (lookupOf access (stores e.1) e).failure?) (fun h => nomatch h) hd
  · intro d hd f
    refine inv.failures_update he (.settled (lookupOf access (stores e.1) e).failure?) ?_ hd
    intro g hg
    cases hg
    simp [taskFailure?, hrefers]
  · change _ + (s.permits + 1) = _
    omega
  · change Log.activeFrom 0 (s.progress.events ++ _) = _
    rw [Log.activeFrom_append, inv.active, hactive]
    omega
  · change Log.maxActiveFrom 0 (s.progress.events ++ _) ≤ _
    rw [Log.maxActiveFrom_append, inv.active]
    have hmax : Log.maxActiveFrom (s.underWay c.episodes) (lookupOf access (stores e.1) e).exchange.finish =
        s.underWay c.episodes := by
      rw [Exchange.finish_eq]
      change max _ (s.underWay c.episodes - 1) = _
      omega
    have := inv.maxActive
    omega
  · change Log.unclosedOf (s.progress.events ++ _) = _
    rw [Log.unclosedOf_append, inv.unclosed, Exchange.unclosedOf_finish]
    omega

/-- Every turn keeps the invariant. -/
theorem turn (inv : Invariant access stores concurrency c s) (i : Nat) :
    Invariant access stores concurrency c (s.turn access stores c.episodes i) := by
  rcases s.turn_cases access stores c.episodes i with hsame | ⟨r, htask, hcases⟩
  · rw [hsame]
    exact inv
  · have he : (i, r) ∈ c.episodes := Connection.lookup_episodes.mp htask
    rcases hcases with ⟨hstage, hrefers, hturn⟩ | ⟨hstage, hrefers, hpermits, hturn⟩ |
      ⟨hstage, hturn⟩
    · rw [hturn]
      exact inv.skip he hstage hrefers
    · rw [hturn]
      exact inv.start he hstage hrefers hpermits
    · rw [hturn]
      exact inv.finish he hstage

/-- The invariant holds after every order of turns. -/
theorem after (access : Access) (stores : Stores) (concurrency : Int) (c : Connection)
    (order : List Nat) :
    Invariant access stores concurrency c (State.after access stores concurrency c order) := by
  unfold State.after
  have hrun : ∀ s, Invariant access stores concurrency c s →
      Invariant access stores concurrency c (order.foldl (State.turn access stores c.episodes) s) := by
    induction order with
    | nil => exact fun s inv => inv
    | cons i rest ih => exact fun s inv => ih _ (inv.turn i)
  exact hrun _ (Invariant.initial access stores concurrency c)

end Invariant

end Enrichment
end Costar
