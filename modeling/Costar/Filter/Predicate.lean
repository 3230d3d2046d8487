import Costar.Cypher.Condition
import Costar.Filter.Constraint

/-!
# Predicates

A category's filter becomes one condition on a node, the conjunction of what its entries ask,
with the operands kept apart as parameters.  A parameter is named for its category, field and
operator, so that the parameters of different entries differ.
-/

namespace Costar

namespace Constraint

/-- The name of a constraint's parameter. -/
def parameterName (c : Constraint) : String :=
  c.category ++ "_" ++ c.field ++ "_" ++ c.operator.slug

/-- An operand as a query takes it: a tuple is sent as a list. -/
def parameterValue : Value → Value
  | .tuple items => .list items
  | v => v

/-- The condition and the parameters of a constraint.  A range needs two operands, a comparison
at least one. -/
def compile (node : String) (c : Constraint) : Except Failure (Cypher.Condition × Record String) :=
  let property : Cypher.Property := ⟨node, c.field⟩
  match c.operator, c.operands with
  | .compare comparison, operand :: _ =>
    .ok (.compare property comparison c.parameterName, [(c.parameterName, parameterValue operand)])
  | .compare _, [] => .error .missingOperand
  | .range, [low, high] =>
    let lowName := c.parameterName ++ "_low"
    let highName := c.parameterName ++ "_high"
    .ok (.group (.both (.compare property .ge lowName) (.compare property .le highName)),
      [(lowName, parameterValue low), (highName, parameterValue high)])
  | .range, operands => .error (.operandCount operands.length)

end Constraint

/-- The condition of a category's filter, its parameters, and the constraints it was made of. -/
structure Predicate where
  condition : Cypher.Condition
  parameters : Record String
  constraints : List Constraint
deriving Repr

namespace Predicate

/-- The text of the condition. -/
def text (p : Predicate) : String :=
  p.condition.text

/-- The entries of a category's filter.  What is not given is empty. -/
def entries (filters : Value) : Except Failure Record :=
  match filters with
  | .map entries => .ok entries
  | v => if v.isGiven then .error .notAMapping else .ok []

/-- Reads all entries of a category's filter. -/
def constraintsOf (c : Category) (entries : Record) :
    Except Failure (List Constraint) :=
  entries.mapM fun e => Constraint.parse c e.1 e.2

/-- The conjunction of a list of constraints; none for an empty list. -/
def ofConstraints (node : String) (constraints : List Constraint) :
    Except Failure (Option Predicate) := do
  let parts ← constraints.mapM (Constraint.compile node)
  match parts.map (·.1) with
  | [] => .ok none
  | first :: rest =>
    let parameters := parts.foldl (fun acc part => Record.merge acc part.2) []
    .ok (some ⟨.conjunction first rest, parameters, constraints⟩)

/-- Compiles a category's filter, over a variable that stands for the node. -/
def compile (node : String) (c : Category) (filters : Value) :
    Except Failure (Option Predicate) := do
  ofConstraints node (← constraintsOf c (← entries filters))

/-- Compiles the filter of a category given by name. -/
def compileNamed (node : String) (category : Text) (filters : Value) :
    Except Failure (Option Predicate) := do
  compile node (← Category.named category) filters

end Predicate

end Costar
