import Costar.Run

/-!
# What an observer keeps

The log of a run is read off its events.  This module says what the log of two runs, one after
the other, is.

Main results:

- Theorem `Log.queriesOf_append`: the queries of the one come before those of the other.
- Theorem `Log.maxActiveFrom_append`: the second run begins with what the first has left under
  way.
- Theorem `Log.unclosedOf_append`: sessions left open add up.
-/

namespace Costar
namespace Log

/-- The number of lookups under way after events, when some are under way before. -/
def activeFrom (active : Nat) (events : List Event) : Nat :=
  events.foldl activeAfter active

@[simp]
theorem queriesOf_append (events more : List Event) :
    queriesOf (events ++ more) = queriesOf events ++ queriesOf more :=
  List.filterMap_append

@[simp]
theorem activeFrom_append (active : Nat) (events more : List Event) :
    activeFrom active (events ++ more) = activeFrom (activeFrom active events) more :=
  List.foldl_append

theorem maxActiveFrom_append (active : Nat) (events more : List Event) :
    maxActiveFrom active (events ++ more) =
      max (maxActiveFrom active events) (maxActiveFrom (activeFrom active events) more) := by
  induction events generalizing active with
  | nil =>
      have hle : active ≤ maxActiveFrom active more := by
        cases more with
        | nil => exact Nat.le_refl _
        | cons e es => exact Nat.le_max_left _ _
      simp only [List.nil_append, maxActiveFrom, activeFrom, List.foldl_nil]
      omega
  | cons e es ih =>
      have hnext := ih (activeAfter active e)
      simp only [List.cons_append, maxActiveFrom, activeFrom, List.foldl_cons] at hnext ⊢
      rw [hnext, Nat.max_assoc]

theorem foldl_unclosedAfter (events : List Event) (n : Int) :
    events.foldl unclosedAfter n = n + unclosedOf events := by
  unfold unclosedOf
  induction events generalizing n with
  | nil => simp
  | cons e es ih =>
      rw [List.foldl_cons, List.foldl_cons, ih (unclosedAfter n e), ih (unclosedAfter 0 e)]
      cases e with
      | opened database =>
          simp only [unclosedAfter]
          omega
      | ran query =>
          simp only [unclosedAfter]
          omega
      | closed =>
          simp only [unclosedAfter]
          omega

@[simp]
theorem unclosedOf_append (events more : List Event) :
    unclosedOf (events ++ more) = unclosedOf events + unclosedOf more := by
  rw [← foldl_unclosedAfter]
  exact List.foldl_append

end Log

/-! ## The log of an exchange -/

namespace Exchange

variable {α : Type}

@[simp]
theorem queriesOf_start (x : Exchange α) : Log.queriesOf x.start = [x.query] :=
  rfl

@[simp]
theorem queriesOf_finish (x : Exchange α) : Log.queriesOf x.finish = [] := by
  rw [finish_eq]
  rfl

@[simp]
theorem queriesOf_events (x : Exchange α) : Log.queriesOf x.events = [x.query] := by
  rw [events_eq]
  rfl

@[simp]
theorem unclosedOf_start (x : Exchange α) : Log.unclosedOf x.start = 1 :=
  rfl

@[simp]
theorem unclosedOf_finish (x : Exchange α) : Log.unclosedOf x.finish = -1 := by
  rw [finish_eq]
  rfl

end Exchange

end Costar
