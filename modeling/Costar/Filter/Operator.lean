/-!
# Filter operators

What a filter asks of a field.  In a filter key the operator is a suffix of the field's name,
and equality is the empty suffix.
-/

namespace Costar

/-- A comparison between a property and one operand. -/
inductive Comparison where
  | eq
  | gt
  | lt
  | ge
  | le
deriving DecidableEq, Repr

namespace Comparison

/-- The sign of a comparison in a query. -/
def sign : Comparison → String
  | .eq => "="
  | .gt => ">"
  | .lt => "<"
  | .ge => ">="
  | .le => "<="

end Comparison

/-- What a filter asks of a field: a comparison with one operand, or to lie between two. -/
inductive Operator where
  | compare (c : Comparison)
  | range
deriving DecidableEq, Repr

namespace Operator

/-- All operators. -/
def all : List Operator :=
  [.compare .eq, .compare .gt, .compare .lt, .compare .ge, .compare .le, .range]

/-- The name of an operator. -/
def name : Operator → String
  | .compare .eq => "EQ"
  | .compare .gt => "GT"
  | .compare .lt => "LT"
  | .compare .ge => "GTE"
  | .compare .le => "LTE"
  | .range => "IN"

/-- The operator of a name. -/
def ofName? (name : String) : Option Operator :=
  all.find? (·.name == name)

/-- The suffix that asks for an operator in a filter key. -/
def suffix : Operator → String
  | .compare .eq => ""
  | .compare .gt => "_GT"
  | .compare .lt => "_LT"
  | .compare .ge => "_GTE"
  | .compare .le => "_LTE"
  | .range => "_IN"

/-- The name of an operator inside a parameter name. -/
def slug : Operator → String
  | .compare .eq => "eq"
  | .compare .gt => "gt"
  | .compare .lt => "lt"
  | .compare .ge => "gte"
  | .compare .le => "lte"
  | .range => "in"

/-- The operators with a suffix, in the order in which a key is tried for them. -/
def suffixed : List Operator :=
  [.compare .ge, .compare .le, .compare .gt, .compare .lt, .range]

theorem ofName?_name (op : Operator) : ofName? op.name = some op := by
  rcases op with (_ | _ | _ | _ | _) | _ <;> decide

end Operator

end Costar
