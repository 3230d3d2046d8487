import Costar.Cypher.Condition
import Costar.Graph.Path
import Mathlib.Data.List.Basic

/-!
# The meaning of conditions

A condition is true, false or unknown of a path.  How values compare is left open: any comparison
may be true, false or unknown of any two values.  A name that stands for nothing makes what it is
used in unknown.

Main results:

- Definition `Condition.truth`: the truth of a condition, in three values.
- Theorem `Condition.truth_conjunction`: a conjunction is true when all its parts are.
- Theorem `Condition.truth_everyNode`: a condition on every node with a label is true when its body
  is true of each of them.
-/

namespace Costar.Cypher

/-! ## Three values -/

/-- Whether something is true or false; none when that is unknown. -/
abbrev Truth := Option Bool

namespace Truth

/-- The truth of a conjunction: false when one side is, and else unknown when one side is. -/
def and : Truth → Truth → Truth
  | some false, _ => some false
  | _, some false => some false
  | some true, some true => some true
  | _, _ => none

/-- The truth of an alternative: true when one side is, and else unknown when one side is. -/
def or : Truth → Truth → Truth
  | some true, _ => some true
  | _, some true => some true
  | some false, some false => some false
  | _, _ => none

/-- The truth of all of several. -/
def all (truths : List Truth) : Truth :=
  truths.foldr and (some true)

/-- The truth of one of several. -/
def any (truths : List Truth) : Truth :=
  truths.foldr or (some false)

theorem and_eq_true {a b : Truth} : and a b = some true ↔ a = some true ∧ b = some true := by
  rcases a with _ | _ | _ <;> rcases b with _ | _ | _ <;> simp [and]

theorem or_eq_true {a b : Truth} : or a b = some true ↔ a = some true ∨ b = some true := by
  rcases a with _ | _ | _ <;> rcases b with _ | _ | _ <;> simp [or]

theorem all_eq_true {truths : List Truth} : all truths = some true ↔ ∀ t ∈ truths, t = some true := by
  induction truths with
  | nil => simp [all]
  | cons t truths ih =>
      rw [all, List.foldr_cons, and_eq_true, List.forall_mem_cons, ← ih]
      rfl

theorem any_eq_true {truths : List Truth} : any truths = some true ↔ some true ∈ truths := by
  induction truths with
  | nil => simp [any]
  | cons t truths ih =>
      rw [any, List.foldr_cons, or_eq_true, List.mem_cons, ← ih, eq_comm]
      rfl

end Truth

/-! ## The truth of a condition -/

/-- What a condition is about: how values compare, what the parameters are, and which nodes the
variable of the path stands for. -/
structure Situation where
  compare : Comparison → Value → Value → Truth
  parameters : Record String
  path : String
  nodes : List Node

namespace Situation

/-- The truth of a comparison between a property and a parameter. -/
def compareWith (w : Situation) (bound : List (String × Node)) (property : Property)
    (comparison : Comparison) (parameter : String) : Truth :=
  match bound.lookup property.node, w.parameters.get? parameter with
  | some n, some operand =>
    w.compare comparison (Record.getOrNull n.properties property.field) operand
  | _, _ => none

end Situation

namespace Condition

/-- The truth of a condition, when variables stand for some nodes. -/
def truth (w : Situation) (bound : List (String × Node)) : Condition → Truth
  | .compare property comparison parameter => w.compareWith bound property comparison parameter
  | .memberOf property parameters => .any (parameters.map (w.compareWith bound property .eq))
  | .group body => body.truth w bound
  | .both left right => .and (left.truth w bound) (right.truth w bound)
  | .either left right => .or (left.truth w bound) (right.truth w bound)
  | .everyNode node _ path label body =>
    if path = w.path then
      .all ((w.nodes.filter (·.labels.contains label)).map fun n =>
        body.truth w ((node, n) :: bound))
    else none

variable {w : Situation} {bound : List (String × Node)}

theorem truth_compare {node field parameter : String} {comparison : Comparison} {n : Node}
    {operand : Value} (hnode : bound.lookup node = some n)
    (hparameter : w.parameters.get? parameter = some operand) :
    (compare ⟨node, field⟩ comparison parameter).truth w bound =
      w.compare comparison (Record.getOrNull n.properties field) operand := by
  rw [truth, Situation.compareWith, hnode, hparameter]

theorem truth_both {left right : Condition} :
    (both left right).truth w bound = some true ↔
      left.truth w bound = some true ∧ right.truth w bound = some true := by
  rw [truth, Truth.and_eq_true]

theorem truth_either {left right : Condition} :
    (either left right).truth w bound = some true ↔
      left.truth w bound = some true ∨ right.truth w bound = some true := by
  rw [truth, Truth.or_eq_true]

theorem truth_memberOf {property : Property} {parameters : List String} :
    (memberOf property parameters).truth w bound = some true ↔
      ∃ parameter ∈ parameters, (compare property .eq parameter).truth w bound = some true := by
  rw [truth, Truth.any_eq_true, List.mem_map]
  rfl

/-- A conjunction is true when all its parts are. -/
theorem truth_conjunction {first : Condition} {rest : List Condition} :
    (conjunction first rest).truth w bound = some true ↔
      ∀ c ∈ first :: rest, c.truth w bound = some true := by
  induction rest generalizing first with
  | nil => simp [conjunction]
  | cons second rest ih =>
      have hstep := @ih (both first second)
      rw [List.forall_mem_cons, truth_both] at hstep
      rw [List.forall_mem_cons, List.forall_mem_cons, ← and_assoc, ← hstep]
      rfl

/-- A condition on every node with a label is true when its body is true of each of them. -/
theorem truth_everyNode {node inner path label : String} {body : Condition} (h : path = w.path) :
    (everyNode node inner path label body).truth w bound = some true ↔
      ∀ n ∈ w.nodes, label ∈ n.labels → body.truth w ((node, n) :: bound) = some true := by
  rw [truth, if_pos h, Truth.all_eq_true, List.forall_mem_map]
  simp only [List.mem_filter, List.contains_iff_mem]
  constructor
  · intro hall n hn hlabel
    exact hall n ⟨hn, hlabel⟩
  · rintro hall n ⟨hn, hlabel⟩
    exact hall n hn hlabel

end Condition

end Costar.Cypher
