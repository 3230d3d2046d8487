import Costar.Proofs.Enrichment.Turns

/-!
# Every order of turns comes to the same

Whatever the order in which the tasks of an enrichment take their turns, once all of them have
settled the connection and the failure to report are the same.  Every schedule along which `enrich`
may run is one of these orders.

Main results:

- Theorem `Invariant.connection_of_isOver`: the connection that any order leads to.
- Theorem `State.exists_isOver`: the tasks never block each other for good.
- Theorem `exists_order_enrich`: whatever its timing, `enrich` is what the tasks come to in one of
  the orders.
- Theorem `orders_agree`: the limit on lookups, and the one outcome of all orders.
-/

namespace Costar

/-- A connection with all the episodes that its triples refer to enriched. -/
def Connection.enriched (access : Access) (stores : Enrichment.Stores) (c : Connection) : Connection :=
  { c with
    projects := c.projects.mapIdx fun i project =>
      if i ∈ c.projectRefs then project.enriched access (stores i) else project }

/-- Functions that agree on a list find the same in it. -/
theorem findSome?_congr {α β : Type} {f g : α → Option β} {l : List α}
    (h : ∀ a ∈ l, f a = g a) : l.findSome? f = l.findSome? g := by
  induction l with
  | nil => rfl
  | cons a l ih =>
      rw [List.findSome?_cons, List.findSome?_cons, h a List.mem_cons_self,
        ih fun b hb => h b (List.mem_cons_of_mem a hb)]

namespace Enrichment

variable {access : Access} {stores : Stores} {concurrency : Int} {c : Connection} {s : State}

/-! ## The connection and the result to come to -/

/-- The result of an enrichment: the failure of the first episode that has one. -/
def resultOf (access : Access) (stores : Stores) (c : Connection) : Except Failure Unit :=
  match c.episodes.findSome? (fun e => taskFailure? access (stores e.1) e) with
  | some f => .error f
  | none => .ok ()

/-- The failure that is reported is that of the first episode whose task fails. -/
theorem resultOf_eq_error {f : Failure} :
    resultOf access stores c = .error f ↔
      ∃ before e after, c.episodes = before ++ e :: after ∧
        (∀ d ∈ before, ∀ g, ¬ Fails access (stores d.1) d g) ∧ Fails access (stores e.1) e f := by
  have hfirst : resultOf access stores c = .error f ↔
      c.episodes.findSome? (fun e => taskFailure? access (stores e.1) e) = some f := by
    unfold resultOf
    cases c.episodes.findSome? (fun e => taskFailure? access (stores e.1) e) with
    | none => simp
    | some g => simp
  rw [hfirst, List.findSome?_eq_some_iff]
  simp only [taskFailure?_eq_none, taskFailure?_eq_some]
  constructor
  · rintro ⟨before, e, after, hsplit, hfails, hbefore⟩
    exact ⟨before, e, after, hsplit, hbefore, hfails⟩
  · rintro ⟨before, e, after, hsplit, hbefore, hfails⟩
    exact ⟨before, e, after, hsplit, hfails, hbefore⟩

theorem resultOf_eq_ok :
    resultOf access stores c = .ok () ↔ ∀ e ∈ c.episodes, ∀ f, ¬ Fails access (stores e.1) e f := by
  have hnone : resultOf access stores c = .ok () ↔
      c.episodes.findSome? (fun e => taskFailure? access (stores e.1) e) = none := by
    unfold resultOf
    cases c.episodes.findSome? (fun e => taskFailure? access (stores e.1) e) with
    | none => simp
    | some f => simp
  rw [hnone, List.findSome?_eq_none_iff]
  simp only [taskFailure?_eq_none]

namespace State

theorem isOver_iff {tasks : List (Nat × Record)} :
    s.isOver tasks = true ↔ ∀ e ∈ tasks, ∃ f, s.stage e.1 = .settled f := by
  unfold isOver
  rw [List.all_eq_true]
  constructor
  · intro h e he
    have hsettled := h e he
    cases hstage : s.stage e.1 with
    | settled f => exact ⟨f, rfl⟩
    | waiting => rw [hstage] at hsettled; cases hsettled
    | underWay => rw [hstage] at hsettled; cases hsettled
  · intro h e he
    rcases h e he with ⟨f, hf⟩
    rw [hf]
    rfl

theorem underWay_of_isOver {tasks : List (Nat × Record)} (h : s.isOver tasks = true) :
    s.underWay tasks = 0 := by
  unfold underWay
  rw [List.sum_eq_zero_iff_forall_eq_nat]
  intro n hn
  rcases List.mem_map.mp hn with ⟨e, he, rfl⟩
  rcases isOver_iff.mp h e he with ⟨f, hf⟩
  rw [hf]
  rfl

end State

namespace Invariant

/-- Once all tasks have settled the episodes are enriched, whatever the order of turns was. -/
theorem connection_of_isOver (inv : Invariant access stores concurrency c s)
    (h : s.isOver c.episodes = true) : s.progress.connection = c.enriched access stores := by
  have hprojects : s.progress.connection.projects = (c.enriched access stores).projects := by
    apply List.ext_getElem?
    intro j
    rw [inv.projects, Connection.enriched, List.getElem?_mapIdx]
    by_cases hsettled : (s.stage j).isSettled = true
    · rcases inv.tasks j hsettled with ⟨r, hr⟩
      rw [if_pos hsettled]
      simp only [(Connection.mem_episodes.mp hr).1, if_true]
    · rw [if_neg hsettled]
      cases hproject : c.projects[j]? with
      | none => rfl
      | some project =>
          by_cases href : j ∈ c.projectRefs
          · cases project with
            | movie r => simp [href, Project.enriched]
            | episode r parent =>
                have he : (j, r) ∈ c.episodes :=
                  Connection.mem_episodes.mpr ⟨href, parent, hproject⟩
                rcases State.isOver_iff.mp h (j, r) he with ⟨f, hf⟩
                rw [hf] at hsettled
                exact (hsettled rfl).elim
          · simp [href]
  have hpeople := inv.people
  have htriples := inv.triples
  cases hc : s.progress.connection with
  | mk people projects triples =>
      rw [hc] at hprojects hpeople htriples
      simp only at hprojects hpeople htriples
      rw [hprojects, hpeople, htriples]
      rfl

/-- Once all tasks have settled, each has the failure of its own lookup. -/
theorem failure?_of_isOver (inv : Invariant access stores concurrency c s)
    (h : s.isOver c.episodes = true) :
    s.failure? c.episodes = c.episodes.findSome? (fun e => taskFailure? access (stores e.1) e) := by
  unfold State.failure?
  apply findSome?_congr
  intro e he
  rcases State.isOver_iff.mp h e he with ⟨f, hf⟩
  rw [hf, inv.failures e he f hf]
  rfl

/-- What an order of turns comes to, once all tasks have settled. -/
theorem outcome?_of_isOver (inv : Invariant access stores concurrency c s)
    (h : s.isOver c.episodes = true) :
    s.outcome? c.episodes = some ⟨c.enriched access stores,
      ⟨s.progress.events, s.progress.warnings, resultOf access stores c⟩⟩ := by
  unfold State.outcome?
  rw [if_pos h, inv.connection_of_isOver h, inv.failure?_of_isOver h]
  rfl

end Invariant

namespace Invariant

/-- Nothing comes of an order of turns before all tasks have settled. -/
theorem eq_of_outcome? (inv : Invariant access stores concurrency c s) {o : Outcome}
    (h : s.outcome? c.episodes = some o) :
    s.isOver c.episodes = true ∧
      o = ⟨c.enriched access stores,
        ⟨s.progress.events, s.progress.warnings, resultOf access stores c⟩⟩ := by
  by_cases hover : s.isOver c.episodes = true
  · rw [inv.outcome?_of_isOver hover] at h
    exact ⟨hover, (Option.some.inj h).symm⟩
  · rw [State.outcome?, if_neg hover] at h
    cases h

end Invariant

/-! ## The tasks never block each other -/

theorem limit_pos (concurrency : Int) : 0 < limit concurrency :=
  Nat.le_max_left 1 concurrency.toNat

namespace State

theorem turn_eq_skip {e : Nat × Record} (he : e ∈ c.episodes) (hstage : s.stage e.1 = .waiting)
    (hrefers : refersToShow e.2 = false) :
    s.turn access stores c.episodes e.1 = s.skip e.1 := by
  simp [turn, Connection.lookup_episodes.mpr he, hstage, hrefers]

theorem turn_eq_start {e : Nat × Record} (he : e ∈ c.episodes) (hstage : s.stage e.1 = .waiting)
    (hrefers : refersToShow e.2 = true) (hpermits : 0 < s.permits) :
    s.turn access stores c.episodes e.1 = s.start (lookupOf access (stores e.1) e) := by
  simp [turn, Connection.lookup_episodes.mpr he, hstage, hrefers, Nat.ne_of_gt hpermits]

theorem turn_eq_finish {e : Nat × Record} (he : e ∈ c.episodes)
    (hstage : s.stage e.1 = .underWay) :
    s.turn access stores c.episodes e.1 = s.finish (lookupOf access (stores e.1) e) := by
  simp [turn, Connection.lookup_episodes.mpr he, hstage]

/-- A task that moves on leaves fewer steps to do. -/
theorem stepsLeft_lt {t : State} {e : Nat × Record} (he : e ∈ c.episodes) {next : Stage}
    (ht : t.stage = Function.update s.stage e.1 next)
    (hnext : next.stepsLeft < (s.stage e.1).stepsLeft) :
    t.stepsLeft c.episodes < s.stepsLeft c.episodes := by
  have hsum := sum_update c.nodup_episodes he Stage.stepsLeft s.stage next
  unfold stepsLeft
  rw [ht]
  omega

end State

namespace Invariant

/-- As long as a task has not settled, some turn brings one further: a lookup under way may end,
and if there is none then no permit is taken. -/
theorem exists_next (inv : Invariant access stores concurrency c s)
    (h : s.isOver c.episodes = false) :
    ∃ i, (s.turn access stores c.episodes i).stepsLeft c.episodes < s.stepsLeft c.episodes := by
  by_cases hunder : ∃ e ∈ c.episodes, s.stage e.1 = .underWay
  · rcases hunder with ⟨e, he, hstage⟩
    refine ⟨e.1, ?_⟩
    rw [State.turn_eq_finish he hstage]
    exact State.stepsLeft_lt he rfl (by simp [hstage, Stage.stepsLeft])
  · have hnot : ¬ ∀ e ∈ c.episodes, ∃ f, s.stage e.1 = .settled f := by
      intro hall
      rw [State.isOver_iff.mpr hall] at h
      cases h
    push Not at hnot hunder
    rcases hnot with ⟨e, he, hsettled⟩
    have hwaiting : s.stage e.1 = .waiting := by
      cases hstage : s.stage e.1 with
      | waiting => rfl
      | underWay => exact (hunder e he hstage).elim
      | settled f => exact (hsettled f hstage).elim
    refine ⟨e.1, ?_⟩
    by_cases hrefers : refersToShow e.2 = true
    · have hnone : s.underWay c.episodes = 0 := by
        unfold State.underWay
        rw [List.sum_eq_zero_iff_forall_eq_nat]
        intro n hn
        rcases List.mem_map.mp hn with ⟨d, hd, rfl⟩
        cases hstage : s.stage d.1 with
        | waiting => rfl
        | underWay => exact (hunder d hd hstage).elim
        | settled f => rfl
      have hpermits := inv.permits
      have hlimit := limit_pos concurrency
      rw [State.turn_eq_start he hwaiting hrefers (by omega)]
      exact State.stepsLeft_lt he rfl (by simp [hwaiting, Stage.stepsLeft])
    · have hfalse : refersToShow e.2 = false := by simpa using hrefers
      rw [State.turn_eq_skip he hwaiting hfalse]
      exact State.stepsLeft_lt he rfl (by simp [hwaiting, Stage.stepsLeft])

/-- From every moment on the tasks can come to their ends. -/
theorem exists_isOver (inv : Invariant access stores concurrency c s) :
    ∃ more : List Nat,
      (more.foldl (State.turn access stores c.episodes) s).isOver c.episodes = true := by
  induction hn : s.stepsLeft c.episodes using Nat.strongRecOn generalizing s with
  | ind n ih =>
      by_cases hover : s.isOver c.episodes = true
      · exact ⟨[], hover⟩
      · obtain ⟨i, hi⟩ := inv.exists_next (by simpa using hover)
        rw [hn] at hi
        rcases ih _ hi (inv.turn i) rfl with ⟨more, hmore⟩
        exact ⟨i :: more, hmore⟩

end Invariant

/-! ## Every schedule is one of the orders -/

theorem mem_lookups {l : Lookup} :
    l ∈ lookups access stores c ↔
      ∃ e ∈ c.episodes, refersToShow e.2 = true ∧ lookupOf access (stores e.1) e = l := by
  rw [lookups_eq, List.mem_map]
  constructor
  · rintro ⟨e, he, rfl⟩
    rcases List.mem_filter.mp he with ⟨hmem, hrefers⟩
    exact ⟨e, hmem, hrefers, rfl⟩
  · rintro ⟨e, hmem, hrefers, rfl⟩
    exact ⟨e, List.mem_filter.mpr ⟨hmem, hrefers⟩, rfl⟩

/-- Lookups are for episodes at different positions. -/
theorem nodup_positions (access : Access) (stores : Stores) (c : Connection) :
    ((lookups access stores c).map (·.position)).Nodup := by
  have hfilter : ((c.episodes.filter fun e => refersToShow e.2).map (·.1)).Nodup :=
    c.nodup_episodes.sublist (List.filter_sublist.map _)
  rw [lookups_eq, List.map_map]
  exact hfilter

/-- Lookups with different numbers are for episodes at different positions. -/
theorem eq_of_position_eq {i j : Nat} {l m : Lookup} (hi : (lookups access stores c)[i]? = some l)
    (hj : (lookups access stores c)[j]? = some m) (h : l.position = m.position) : i = j := by
  have hi' : ((lookups access stores c).map (·.position))[i]? = some l.position := by
    rw [List.getElem?_map, hi]
    rfl
  have hj' : ((lookups access stores c).map (·.position))[j]? = some l.position := by
    rw [List.getElem?_map, hj, h]
    rfl
  have hlt : i < ((lookups access stores c).map (·.position)).length := by
    exact (List.getElem?_eq_some_iff.mp hi').1
  exact (List.getElem?_inj hlt (nodup_positions access stores c)).mp (hi'.trans hj'.symm)

/-- The failures of lookups are the failures of the tasks. -/
theorem findSome?_lookups (access : Access) (stores : Stores) (c : Connection) :
    (lookups access stores c).findSome? Lookup.failure? =
      c.episodes.findSome? (fun e => taskFailure? access (stores e.1) e) := by
  rw [lookups_eq, List.findSome?_map]
  induction c.episodes with
  | nil => rfl
  | cons e rest ih =>
      rw [List.filter_cons, List.findSome?_cons]
      by_cases hrefers : refersToShow e.2 = true
      · rw [if_pos hrefers, List.findSome?_cons, ih]
        simp [taskFailure?, hrefers]
      · rw [if_neg hrefers, ih]
        simp [taskFailure?, hrefers]

/-- How the tasks stand when, of the lookups by their numbers, some still wait and some are under
way, and all other tasks have settled. -/
structure Follows (access : Access) (stores : Stores) (concurrency : Int) (c : Connection)
    (waiting active : List Nat) (s : State) : Prop where
  nodup : (waiting ++ active).Nodup
  bound : ∀ i ∈ waiting ++ active, i < (lookups access stores c).length
  waits : ∀ i ∈ waiting, ∀ l, (lookups access stores c)[i]? = some l → s.stage l.position = .waiting
  underWay : ∀ i ∈ active, ∀ l, (lookups access stores c)[i]? = some l →
    s.stage l.position = .underWay
  settled : ∀ i l, (lookups access stores c)[i]? = some l → i ∉ waiting → i ∉ active →
    (s.stage l.position).isSettled = true
  skipped : ∀ e ∈ c.episodes, refersToShow e.2 = false → (s.stage e.1).isSettled = true
  permits : s.permits + active.length = limit concurrency

namespace Follows

variable {waiting active : List Nat}

/-- When no lookup waits or is under way, all tasks have settled. -/
theorem isOver (h : Follows access stores concurrency c [] [] s) : s.isOver c.episodes = true := by
  unfold State.isOver
  rw [List.all_eq_true]
  intro e he
  by_cases hrefers : refersToShow e.2 = true
  · have hl : lookupOf access (stores e.1) e ∈ lookups access stores c :=
      mem_lookups.mpr ⟨e, he, hrefers, rfl⟩
    rcases List.mem_iff_getElem?.mp hl with ⟨i, hi⟩
    exact h.settled i _ hi (List.not_mem_nil) (List.not_mem_nil)
  · exact h.skipped e he (by simpa using hrefers)

/-- Another task stays as it is when the task of a lookup moves on. -/
theorem update_of_ne {i j : Nat} {l m : Lookup} (hi : (lookups access stores c)[i]? = some l)
    (hj : (lookups access stores c)[j]? = some m) (h : j ≠ i) (stage : Nat → Stage) (next : Stage) :
    Function.update stage l.position next m.position = stage m.position := by
  apply Function.update_of_ne
  intro heq
  exact h (eq_of_position_eq hj hi heq)

/-- The task of an episode without a show stays as it is when the task of a lookup moves on. -/
theorem update_of_skipped {e : Nat × Record} {l : Lookup} (hl : l ∈ lookups access stores c)
    (he : e ∈ c.episodes) (h : refersToShow e.2 = false) (stage : Nat → Stage) (next : Stage) :
    Function.update stage l.position next e.1 = stage e.1 := by
  apply Function.update_of_ne
  intro heq
  rcases mem_lookups.mp hl with ⟨d, hd, hrefers, rfl⟩
  rw [Connection.eq_of_mem_episodes he hd heq, hrefers] at h
  cases h

/-- The first lookup that waits starts. -/
theorem start {i : Nat} {l : Lookup} (h : Follows access stores concurrency c (i :: waiting) active s)
    (hl : (lookups access stores c)[i]? = some l) (room : active.length < limit concurrency) :
    s.turn access stores c.episodes l.position = s.start l ∧
      Follows access stores concurrency c waiting (active ++ [i]) (s.start l) := by
  rcases mem_lookups.mp (List.mem_of_getElem? hl) with ⟨e, he, hrefers, rfl⟩
  have hpermits := h.permits
  have hnodup := h.nodup
  rw [List.cons_append, List.nodup_cons, List.mem_append, not_or] at hnodup
  rcases hnodup with ⟨⟨hwaiting, hactive⟩, hrest⟩
  refine ⟨State.turn_eq_start he (h.waits i List.mem_cons_self _ hl) hrefers (by omega), ?_⟩
  refine ⟨?_, ?_, ?_, ?_, ?_, ?_, ?_⟩
  · rw [← List.append_assoc, List.nodup_append]
    refine ⟨hrest, List.pairwise_singleton _ i, ?_⟩
    intro a ha b hb hab
    rw [List.mem_singleton] at hb
    subst hb
    subst hab
    rcases List.mem_append.mp ha with ha | ha
    · exact hwaiting ha
    · exact hactive ha
  · intro j hj
    apply h.bound j
    rw [← List.append_assoc, List.mem_append, List.mem_singleton] at hj
    rcases hj with hj | rfl
    · exact List.mem_cons_of_mem i hj
    · exact List.mem_cons_self
  · intro j hj m hm
    have hne : j ≠ i := fun heq => hwaiting (heq ▸ hj)
    exact (update_of_ne hl hm hne _ _).trans (h.waits j (List.mem_cons_of_mem i hj) m hm)
  · intro j hj m hm
    by_cases hne : j = i
    · subst hne
      rw [hl] at hm
      cases hm
      exact Function.update_self _ _ _
    · have hj' : j ∈ active := by simpa [hne] using hj
      exact (update_of_ne hl hm hne _ _).trans (h.underWay j hj' m hm)
  · intro j m hm hjw hja
    have hne : j ≠ i := fun heq => hja (heq ▸ List.mem_append_right _ List.mem_cons_self)
    change (Function.update s.stage _ _ m.position).isSettled = true
    rw [update_of_ne hl hm hne]
    refine h.settled j m hm ?_ ?_
    · simp [hne, hjw]
    · exact fun hmem => hja (List.mem_append_left _ hmem)
  · intro d hd hskip
    change (Function.update s.stage _ _ d.1).isSettled = true
    rw [update_of_skipped (List.mem_of_getElem? hl) hd hskip]
    exact h.skipped d hd hskip
  · change s.permits - 1 + (active ++ [i]).length = _
    rw [List.length_append, List.length_singleton]
    omega

/-- A lookup that is under way ends. -/
theorem finish {i : Nat} {l : Lookup} (h : Follows access stores concurrency c waiting active s)
    (hl : (lookups access stores c)[i]? = some l) (hi : i ∈ active) :
    s.turn access stores c.episodes l.position = s.finish l ∧
      Follows access stores concurrency c waiting (active.erase i) (s.finish l) := by
  rcases mem_lookups.mp (List.mem_of_getElem? hl) with ⟨e, he, hrefers, rfl⟩
  rcases List.nodup_append.mp h.nodup with ⟨hwaitingNodup, hactiveNodup, hdisjoint⟩
  refine ⟨State.turn_eq_finish he (h.underWay i hi _ hl), ?_⟩
  refine ⟨?_, ?_, ?_, ?_, ?_, ?_, ?_⟩
  · exact h.nodup.sublist (List.Sublist.append_left List.erase_sublist waiting)
  · intro j hj
    apply h.bound j
    rcases List.mem_append.mp hj with hj | hj
    · exact List.mem_append_left _ hj
    · exact List.mem_append_right _ (List.mem_of_mem_erase hj)
  · intro j hj m hm
    have hne : j ≠ i := fun heq => hdisjoint j hj i hi heq
    exact (update_of_ne hl hm hne _ _).trans (h.waits j hj m hm)
  · intro j hj m hm
    rcases (List.Nodup.mem_erase_iff hactiveNodup).mp hj with ⟨hne, hj'⟩
    exact (update_of_ne hl hm hne _ _).trans (h.underWay j hj' m hm)
  · intro j m hm hjw hja
    change (Function.update s.stage (lookupOf access (stores e.1) e).position _ m.position).isSettled = true
    by_cases hne : j = i
    · subst hne
      rw [hl] at hm
      cases hm
      rw [Function.update_self]
      rfl
    · rw [update_of_ne hl hm hne]
      refine h.settled j m hm hjw ?_
      exact fun hmem => hja ((List.Nodup.mem_erase_iff hactiveNodup).mpr ⟨hne, hmem⟩)
  · intro d hd hskip
    change (Function.update s.stage _ _ d.1).isSettled = true
    rw [update_of_skipped (List.mem_of_getElem? hl) hd hskip]
    exact h.skipped d hd hskip
  · have hpermits := h.permits
    have hlength := List.length_erase_of_mem hi
    have hpos := List.length_pos_of_mem hi
    change s.permits + 1 + (active.erase i).length = _
    omega

/-- A possible schedule of the lookups is an order of turns. -/
theorem exists_order {schedule : Schedule}
    (hvalid : Schedule.Valid (limit concurrency) waiting active schedule)
    (h : Follows access stores concurrency c waiting active s) :
    ∃ order : List Nat,
      let t := order.foldl (State.turn access stores c.episodes) s
      t.progress = schedule.foldl (Progress.advance (lookups access stores c)) s.progress ∧
        t.isOver c.episodes = true := by
  induction hvalid generalizing s with
  | done => exact ⟨[], rfl, h.isOver⟩
  | @start i waiting active schedule room rest ih =>
      obtain ⟨l, hl⟩ : ∃ l, (lookups access stores c)[i]? = some l :=
        ⟨_, List.getElem?_eq_getElem (h.bound i List.mem_cons_self)⟩
      rcases h.start hl room with ⟨hturn, hnext⟩
      rcases ih hnext with ⟨order, hprogress, hover⟩
      refine ⟨l.position :: order, ?_, ?_⟩
      · rw [List.foldl_cons, List.foldl_cons, hturn, hprogress, Progress.advance, hl]
        rfl
      · rw [List.foldl_cons, hturn]
        exact hover
  | @finish i waiting active schedule underWay rest ih =>
      obtain ⟨l, hl⟩ : ∃ l, (lookups access stores c)[i]? = some l :=
        ⟨_, List.getElem?_eq_getElem (h.bound i (List.mem_append_right _ underWay))⟩
      rcases h.finish hl underWay with ⟨hturn, hnext⟩
      rcases ih hnext with ⟨order, hprogress, hover⟩
      refine ⟨l.position :: order, ?_, ?_⟩
      · rw [List.foldl_cons, List.foldl_cons, hturn, hprogress, Progress.advance, hl]
        rfl
      · rw [List.foldl_cons, hturn]
        exact hover

end Follows

/-- The tasks of episodes without a show may all have their turns first. -/
theorem foldl_turn_skip (access : Access) (stores : Stores) {positions : List Nat}
    (hnodup : positions.Nodup)
    (h : ∀ i ∈ positions, ∃ r, (i, r) ∈ c.episodes ∧ refersToShow r = false ∧
      s.stage i = .waiting) :
    let t := positions.foldl (State.turn access stores c.episodes) s
    t.progress = { s.progress with
      connection := positions.foldl (fun acc i => acc.setParent i .absent)
        s.progress.connection } ∧
      t.permits = s.permits ∧
      ∀ j, t.stage j = if j ∈ positions then .settled none else s.stage j := by
  induction positions generalizing s with
  | nil => exact ⟨rfl, rfl, fun j => rfl⟩
  | cons i rest ih =>
      rcases h i List.mem_cons_self with ⟨r, he, hrefers, hwaiting⟩
      have hturn : s.turn access stores c.episodes i = s.skip i :=
        State.turn_eq_skip he hwaiting hrefers
      rw [List.nodup_cons] at hnodup
      have hnext : ∀ j ∈ rest, ∃ r, (j, r) ∈ c.episodes ∧ refersToShow r = false ∧
          (s.skip i).stage j = .waiting := by
        intro j hj
        rcases h j (List.mem_cons_of_mem i hj) with ⟨r', he', hrefers', hwaiting'⟩
        have hne : j ≠ i := fun heq => hnodup.1 (heq ▸ hj)
        exact ⟨r', he', hrefers', (Function.update_of_ne hne _ _).trans hwaiting'⟩
      rcases ih hnodup.2 hnext with ⟨hprogress, hpermits, hstage⟩
      simp only [List.foldl_cons]
      rw [hturn]
      refine ⟨hprogress, hpermits, ?_⟩
      intro j
      rw [hstage]
      by_cases hji : j = i
      · subst hji
        simp [State.skip]
      · simp [State.skip, hji]

theorem mem_unreferenced {i : Nat} :
    i ∈ unreferenced c ↔ ∃ r, (i, r) ∈ c.episodes ∧ refersToShow r = false := by
  unfold unreferenced refersToShow
  simp [List.mem_map, List.mem_filter]

/-- After the tasks of the episodes without a show have had their turns, all lookups wait. -/
theorem follows_unreferenced (access : Access) (stores : Stores) (concurrency : Int)
    (c : Connection) :
    let s := State.after access stores concurrency c (unreferenced c)
    s.progress = { connection := (unreferenced c).foldl (fun acc i => acc.setParent i .absent) c } ∧
      Follows access stores concurrency c (List.range (lookups access stores c).length) [] s := by
  have hnodup : (unreferenced c).Nodup :=
    c.nodup_episodes.sublist (List.filter_sublist.map _)
  have hskips : ∀ i ∈ unreferenced c, ∃ r, (i, r) ∈ c.episodes ∧ refersToShow r = false ∧
      (State.initial concurrency c).stage i = .waiting := by
    intro i hi
    rcases mem_unreferenced.mp hi with ⟨r, he, hrefers⟩
    exact ⟨r, he, hrefers, rfl⟩
  rcases foldl_turn_skip access stores hnodup hskips with ⟨hprogress, hpermits, hstage⟩
  refine ⟨hprogress, ?_⟩
  refine ⟨?_, ?_, ?_, ?_, ?_, ?_, ?_⟩
  · rw [List.append_nil]
    exact List.nodup_range
  · intro i hi
    rw [List.append_nil] at hi
    exact List.mem_range.mp hi
  · intro i _ l hl
    rcases mem_lookups.mp (List.mem_of_getElem? hl) with ⟨e, he, hrefers, rfl⟩
    refine (hstage e.1).trans ?_
    rw [if_neg]
    · rfl
    · intro hmem
      rcases mem_unreferenced.mp hmem with ⟨r, hr, hnot⟩
      have hsame := Connection.eq_of_mem_episodes hr he rfl
      rw [← hsame, hnot] at hrefers
      cases hrefers
  · intro i hi
    cases hi
  · intro i l hl hi
    exact (hi (List.mem_range.mpr (List.getElem?_eq_some_iff.mp hl).1)).elim
  · intro e he hskip
    have hmem : e.1 ∈ unreferenced c := mem_unreferenced.mpr ⟨e.2, he, hskip⟩
    refine (congrArg Stage.isSettled (hstage e.1)).trans ?_
    rw [if_pos hmem]
    rfl
  · exact hpermits

/-- The enrichment that runs is one of the orders. -/
theorem exists_order_enrich (access : Access) (stores : Stores) (timing : Timing)
    (concurrency : Int) (c : Connection) :
    ∃ order : List Nat, (State.after access stores concurrency c order).outcome? c.episodes =
      some (enrich access stores timing concurrency c) := by
  rcases follows_unreferenced access stores concurrency c with ⟨hbegun, hfollows⟩
  have hvalid := timing.valid (limit_pos concurrency) (lookups access stores c).length
  rcases Follows.exists_order hvalid hfollows with ⟨order, hprogress, hover⟩
  refine ⟨unreferenced c ++ order, ?_⟩
  have hafter : State.after access stores concurrency c (unreferenced c ++ order) =
      order.foldl (State.turn access stores c.episodes)
        (State.after access stores concurrency c (unreferenced c)) :=
    List.foldl_append
  have inv := Invariant.after access stores concurrency c (unreferenced c ++ order)
  rw [hafter] at inv ⊢
  rw [inv.outcome?_of_isOver hover, ← inv.connection_of_isOver hover, hprogress, hbegun]
  unfold resultOf
  rw [← findSome?_lookups]
  rfl

/-- What `enrich` comes to. -/
theorem enrich_eq (access : Access) (stores : Stores) (timing : Timing) (concurrency : Int)
    (c : Connection) :
    (enrich access stores timing concurrency c).connection = c.enriched access stores ∧
      (enrich access stores timing concurrency c).run.result = resultOf access stores c := by
  rcases exists_order_enrich access stores timing concurrency c with ⟨order, horder⟩
  rcases (Invariant.after access stores concurrency c order).eq_of_outcome? horder with ⟨-, heq⟩
  rw [heq]
  exact ⟨rfl, rfl⟩

/-! ## The projects of an enriched connection -/

/-- The show of the episode at a position; pending where there is no episode. -/
def parentAt (c : Connection) (i : Nat) : ParentShow :=
  match c.projects[i]? with
  | some (.episode _ parent) => parent
  | _ => .pending

theorem enriched_projects_of_mem {e : Nat × Record} (he : e ∈ c.episodes) :
    (c.enriched access stores).projects[e.1]? =
      some (.episode e.2 (parentAfter access (stores e.1) e.2 (parentAt c e.1))) := by
  rcases Connection.mem_episodes.mp he with ⟨href, parent, hproject⟩
  rw [Connection.enriched, List.getElem?_mapIdx, hproject]
  simp [href, Project.enriched, parentAt, hproject]

theorem enriched_projects_of_fails {e : Nat × Record} {f : Failure} (he : e ∈ c.episodes)
    (h : Fails access (stores e.1) e f) :
    (c.enriched access stores).projects[e.1]? = c.projects[e.1]? := by
  rcases Connection.mem_episodes.mp he with ⟨-, parent, hproject⟩
  rw [enriched_projects_of_mem he, hproject]
  simp only [parentAt, hproject]
  rw [parentAfter_of_fails h]

/-! ## All orders -/

/-- Whoever has the next turn, at no moment are more lookups under way than the limit allows, and
the tasks can always come to their ends; `enrich` is what comes of them in one of the orders.
Nothing comes of them before all have settled.  What comes of them then is the same for all orders:
every episode whose own lookup has not failed unexpectedly is enriched, and the failure that is
reported is that of the first episode, in the order of episodes, that has one. -/
theorem orders_agree (access : Access) (stores : Stores) (timing : Timing) (concurrency : Int)
    (c : Connection) (order : List Nat) :
    let s := State.after access stores concurrency c order
    (s.underWay c.episodes : Int) ≤ max 1 concurrency ∧
      (Log.maxActiveFrom 0 s.progress.events : Int) ≤ max 1 concurrency ∧
      (∃ more, ((State.after access stores concurrency c (order ++ more)).outcome?
        c.episodes).isSome = true) ∧
      (∃ other, (State.after access stores concurrency c other).outcome? c.episodes =
        some (enrich access stores timing concurrency c)) ∧
      ∀ o, s.outcome? c.episodes = some o →
        (∀ e ∈ c.episodes, (s.stage e.1).isSettled = true) ∧
        Log.unclosedOf o.run.events = 0 ∧
        o.connection = (enrich access stores timing concurrency c).connection ∧
        (∀ e ∈ c.episodes, (∀ f, ¬ Fails access (stores e.1) e f) →
          ∃ parent warnings, parent ≠ .pending ∧ Attached access (stores e.1) e parent warnings ∧
            o.connection.projects[e.1]? = some (.episode e.2 parent)) ∧
        (∀ e ∈ c.episodes, (∃ f, Fails access (stores e.1) e f) →
          o.connection.projects[e.1]? = c.projects[e.1]?) ∧
        (o.run.result = .ok () ↔ ∀ e ∈ c.episodes, ∀ f, ¬ Fails access (stores e.1) e f) ∧
        ∀ f, o.run.result = .error f ↔
          ∃ before e after, c.episodes = before ++ e :: after ∧
            (∀ d ∈ before, ∀ g, ¬ Fails access (stores d.1) d g) ∧ Fails access (stores e.1) e f := by
  intro s
  have inv : Invariant access stores concurrency c s := Invariant.after access stores concurrency c order
  have hpermits := inv.permits
  have hmax := inv.maxActive
  have hlimit : (limit concurrency : Int) = max 1 concurrency := by
    unfold limit
    omega
  refine ⟨by omega, by omega, ?_, exists_order_enrich access stores timing concurrency c, ?_⟩
  · rcases inv.exists_isOver with ⟨more, hover⟩
    refine ⟨more, ?_⟩
    have hafter : State.after access stores concurrency c (order ++ more) =
        more.foldl (State.turn access stores c.episodes) s := List.foldl_append
    have invAfter := Invariant.after access stores concurrency c (order ++ more)
    rw [hafter] at invAfter ⊢
    rw [invAfter.outcome?_of_isOver hover]
    rfl
  · intro o ho
    rcases inv.eq_of_outcome? ho with ⟨hover, heq⟩
    rw [(enrich_eq access stores timing concurrency c).1, heq]
    refine ⟨?_, ?_, rfl, ?_, ?_, resultOf_eq_ok, fun f => resultOf_eq_error⟩
    · intro e he
      rcases State.isOver_iff.mp hover e he with ⟨f, hf⟩
      rw [hf]
      rfl
    · have hunder := State.underWay_of_isOver hover
      change Log.unclosedOf s.progress.events = 0
      rw [inv.unclosed, hunder]
      rfl
    · intro e he hnot
      have hattached := attached_of_not_fails hnot (parentAt c e.1)
      exact ⟨_, _, hattached.ne_pending, hattached, enriched_projects_of_mem he⟩
    · rintro e he ⟨f, hf⟩
      exact enriched_projects_of_fails he hf

end Enrichment

end Costar
