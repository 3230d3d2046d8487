import Costar.Filter.Operator

/-!
# Conditions

The boolean expressions of the query language that filters are compiled to, and how they are
written.  `AND` binds tighter than `OR`; a `group` is written in parentheses.
-/

namespace Costar.Cypher

/-- A property of a node, which is known by the variable that stands for it. -/
structure Property where
  node : String
  field : String
deriving DecidableEq, Repr

/-- A boolean expression. -/
inductive Condition where
  | compare (property : Property) (comparison : Comparison) (parameter : String)
  | memberOf (property : Property) (parameters : List String)
  | group (body : Condition)
  | both (left right : Condition)
  | either (left right : Condition)
  | everyNode (node inner path label : String) (body : Condition)
deriving Repr

namespace Property

/-- A property as it is written. -/
def text (p : Property) : String :=
  p.node ++ "." ++ p.field

end Property

/-- A reference to a parameter. -/
def reference (parameter : String) : String :=
  "$" ++ parameter

namespace Condition

/-- A condition as it is written. -/
def text : Condition → String
  | .compare property comparison parameter =>
    property.text ++ " " ++ comparison.sign ++ " " ++ reference parameter
  | .memberOf property parameters =>
    property.text ++ " IN [" ++ ", ".intercalate (parameters.map reference) ++ "]"
  | .group body => "(" ++ body.text ++ ")"
  | .both left right => left.text ++ " AND " ++ right.text
  | .either left right => left.text ++ " OR " ++ right.text
  | .everyNode node inner path label body =>
    "all(" ++ node ++ " IN [" ++ inner ++ " IN nodes(" ++ path ++ ") WHERE " ++ inner ++ ":" ++
      label ++ "] WHERE " ++ body.text ++ ")"

/-- The conjunction of a condition with the ones after it. -/
def conjunction (first : Condition) (rest : List Condition) : Condition :=
  rest.foldl .both first

/-- The parameters that a condition refers to, from left to right. -/
def parameters : Condition → List String
  | .compare _ _ parameter => [parameter]
  | .memberOf _ parameters => parameters
  | .group body => body.parameters
  | .both left right => left.parameters ++ right.parameters
  | .either left right => left.parameters ++ right.parameters
  | .everyNode _ _ _ _ body => body.parameters

end Condition

end Costar.Cypher
