import Costar.Filter.Selection

/-!
# Path requests

The query for the shortest path of credits between two people.  Every node between them that a
filter's category labels has to satisfy the filter, except that the two people themselves always
pass the filter of people.
-/

namespace Costar

/-- The filters of a request, as they came or already sorted by category. -/
inductive Filters where
  | given (filters : Value)
  | sorted (selection : Selection)
deriving Repr

namespace Filters

/-- The filters sorted by category. -/
def selection : Filters → Except Failure Selection
  | .given filters => Selection.ofValue filters
  | .sorted selection => .ok selection

end Filters

/-- A query for the shortest path between two people. -/
structure PathRequest where
  first : Int
  second : Int
  conditions : List Cypher.Condition
  parameters : Record String
  predicates : List (Category × Predicate)
deriving Repr

namespace PathRequest

/-- The variable that stands for the path. -/
def pathVariable : String := "p"

/-- The variable that stands for a node of the path. -/
def nodeVariable : String := "n"

/-- The property that identifies a person. -/
def personId : String := "person_id"

/-- The parameter that holds the first person. -/
def firstParameter : String := "first_person_id"

/-- The parameter that holds the second person. -/
def secondParameter : String := "second_person_id"

/-- The condition that a predicate puts on a path. -/
def conditionOn (c : Category) (p : Predicate) : Cypher.Condition :=
  let body :=
    match c with
    | .person =>
      .either (.group p.condition)
        (.memberOf ⟨nodeVariable, personId⟩ [firstParameter, secondParameter])
    | _ => p.condition
  .everyNode nodeVariable "x" pathVariable c.label body

/-- A pattern that matches the person whose id a parameter holds. -/
def personPattern (node parameter : String) : String :=
  "(" ++ node ++ ":" ++ Label.person ++ " \x7b" ++ personId ++ ": " ++
    Cypher.reference parameter ++ "\x7d)"

/-- The lines that state the conditions; none where there are no conditions. -/
def whereClause (conditions : List Cypher.Condition) : List String :=
  if conditions.isEmpty then []
  else ["WHERE " ++ "\nAND ".intercalate (conditions.map (·.text))]

/-- The text of the query. -/
def text (r : PathRequest) : String :=
  "\n".intercalate <|
    ["MATCH " ++ personPattern "p1" firstParameter ++ ", " ++
        personPattern "p2" secondParameter ++ ", ",
      pathVariable ++ " = shortestPath((p1)-[:" ++ "|".intercalate creditTypes ++ "*]-(p2))"] ++
    whereClause r.conditions ++ ["RETURN " ++ pathVariable]

/-- The id of a person, which is a whole number. -/
def checkId (name : String) (v : Value) : Except Failure Int :=
  match v with
  | .int n => .ok n
  | v => .error (.invalidOperand Category.person.name name (.expected "int" v.kind))

/-- Compiles the filters of all categories. -/
def compileAll (node : String) (given : List (Category × Value)) :
    Except Failure (List (Category × Predicate)) := do
  let compiled ← given.mapM fun e => do
    let predicate ← Predicate.compile node e.1 e.2
    pure (predicate.map (e.1, ·))
  pure (compiled.filterMap id)

/-- Builds the query.  The variable is that of the compiled predicates. -/
def build (node : String) (first second : Value) (filters : Filters) :
    Except Failure PathRequest := do
  let first ← checkId firstParameter first
  let second ← checkId secondParameter second
  let selection ← filters.selection
  let predicates ← compileAll node selection.given
  let ids : Record String := [(firstParameter, .int first), (secondParameter, .int second)]
  pure {
    first, second, predicates
    conditions := predicates.map fun e => conditionOn e.1 e.2
    parameters := predicates.foldl (fun acc e => Record.merge acc e.2.parameters) ids }

end PathRequest

end Costar
