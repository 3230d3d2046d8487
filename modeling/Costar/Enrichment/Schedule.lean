/-!
# Schedules of lookups

Lookups run side by side, but only so many at a time.  A schedule is the order in which they
start and finish.  `Schedule.Valid` says which orders are possible under a limit, and a `Timing`
picks a possible one.  `Schedule.inOrder` is the one in which lookups finish in the order in which
they started.

Main definitions: `Schedule.Valid` and `Timing`.  Main statement: `Schedule.valid_inOrder`, that
order is possible.
-/

namespace Costar

/-- The start or the end of a lookup, which is known by its number. -/
inductive Move where
  | start (i : Nat)
  | finish (i : Nat)
deriving DecidableEq, Repr

/-- The order in which lookups start and finish. -/
abbrev Schedule := List Move

namespace Schedule

/-- `Valid limit waiting active s`: the schedule `s` takes the lookups that wait, in their order,
and those that are under way to their ends, with never more than `limit` under way. -/
inductive Valid (limit : Nat) : List Nat → List Nat → Schedule → Prop where
  | done : Valid limit [] [] []
  | start {i : Nat} {waiting active : List Nat} {s : Schedule} (room : active.length < limit)
      (rest : Valid limit waiting (active ++ [i]) s) :
      Valid limit (i :: waiting) active (.start i :: s)
  | finish {i : Nat} {waiting active : List Nat} {s : Schedule} (underWay : i ∈ active)
      (rest : Valid limit waiting (active.erase i) s) :
      Valid limit waiting active (.finish i :: s)

/-- The end of a lookup, after which the next one that waits starts. -/
def turn (limit count i : Nat) : Schedule :=
  if limit + i < count then [.finish i, .start (limit + i)] else [.finish i]

/-- The schedule of `count` lookups in which as many start at once as the limit allows, they
finish in the order in which they started, and each that finishes makes room for the next. -/
def inOrder (limit count : Nat) : Schedule :=
  (List.range (min limit count)).map .start ++ (List.range count).flatMap (turn limit count)

/-! ## The order is possible -/

/-- As many lookups as the limit allows may start at once. -/
theorem valid_starts {limit count : Nat} {s : Schedule} {n j : Nat} (hn : j + n = min limit count)
    (rest : Valid limit (List.range' (j + n) (count - (j + n))) (List.range' 0 (j + n)) s) :
    Valid limit (List.range' j (count - j)) (List.range' 0 j)
      ((List.range' j n).map .start ++ s) := by
  induction n generalizing j with
  | zero => simpa using rest
  | succ n ih =>
    have hwaiting : List.range' j (count - j) = j :: List.range' (j + 1) (count - (j + 1)) := by
      rw [show count - j = count - (j + 1) + 1 by omega, List.range'_succ]
    have hactive : List.range' 0 j ++ [j] = List.range' 0 (j + 1) := by
      simp [List.range'_concat]
    rw [hwaiting, List.range'_succ, List.map_cons, List.cons_append]
    refine .start (by simp; omega) ?_
    rw [hactive]
    exact ih (by omega) (by rwa [show j + 1 + n = j + (n + 1) by omega])

/-- The lookups under way may finish one after another, each making room for the next. -/
theorem valid_turns {limit count : Nat} (hlimit : 0 < limit) {n k : Nat} (hn : k + n = count) :
    Valid limit (List.range' (limit + k) (count - (limit + k)))
      (List.range' k (min (limit + k) count - k))
      ((List.range' k n).flatMap (turn limit count)) := by
  induction n generalizing k with
  | zero =>
    subst hn
    rw [show k + 0 - (limit + k) = 0 by omega, show min (limit + k) (k + 0) - k = 0 by omega]
    exact .done
  | succ n ih =>
    have hactive : List.range' k (min (limit + k) count - k) =
        k :: List.range' (k + 1) (min (limit + k) count - (k + 1)) := by
      rw [show min (limit + k) count - k = min (limit + k) count - (k + 1) + 1 by omega,
        List.range'_succ]
    have next := ih (k := k + 1) (by omega)
    rw [List.range'_succ, List.flatMap_cons, hactive, turn]
    split
    · next hmore =>
      have hwaiting : List.range' (limit + k) (count - (limit + k)) =
          (limit + k) :: List.range' (limit + (k + 1)) (count - (limit + (k + 1))) := by
        rw [show count - (limit + k) = count - (limit + (k + 1)) + 1 by omega, List.range'_succ,
          show limit + k + 1 = limit + (k + 1) by omega]
      rw [hwaiting]
      refine .finish (List.mem_cons_self ..) (.start ?_ ?_)
      · simp
        omega
      · have hjoined : List.range' (k + 1) (min (limit + k) count - (k + 1)) ++ [limit + k] =
            List.range' (k + 1) (min (limit + (k + 1)) count - (k + 1)) := by
          rw [show min (limit + (k + 1)) count - (k + 1) =
              min (limit + k) count - (k + 1) + 1 by omega, List.range'_concat]
          simp
          omega
        rw [List.erase_cons_head, hjoined]
        exact next
    · next hlast =>
      rw [show count - (limit + k) = 0 by omega, show min (limit + k) count = count by omega]
      rw [show count - (limit + (k + 1)) = 0 by omega,
        show min (limit + (k + 1)) count = count by omega] at next
      refine .finish (List.mem_cons_self ..) ?_
      rw [List.erase_cons_head]
      exact next

/-- Lookups may finish in the order in which they started. -/
theorem valid_inOrder {limit : Nat} (hlimit : 0 < limit) (count : Nat) :
    Valid limit (List.range count) [] (inOrder limit count) := by
  have turns := valid_turns hlimit (Nat.zero_add count)
  rw [inOrder, List.range_eq_range', List.range_eq_range']
  refine valid_starts (j := 0) (Nat.zero_add _) ?_
  by_cases h : count ≤ limit
  · simpa [h, Nat.min_eq_right, Nat.sub_eq_zero_of_le] using turns
  · simpa [Nat.min_eq_left (Nat.le_of_not_le h)] using turns

end Schedule

/-- The times that lookups take, as far as they matter: a possible schedule for every limit and
every number of lookups. -/
structure Timing where
  schedule (limit count : Nat) : Schedule
  valid {limit : Nat} (h : 0 < limit) (count : Nat) :
    Schedule.Valid limit (List.range count) [] (schedule limit count)

/-- All lookups take the same time, so they finish in the order in which they start. -/
def Timing.inOrder : Timing where
  schedule := Schedule.inOrder
  valid := Schedule.valid_inOrder

end Costar
