import Costar.Filter.Key
import Costar.Filter.Operand

/-!
# Constraints

A constraint is a filter entry that has been read: a field, an operator and its operands.  A
comparison has one operand and a range two, the lower bound first.
-/

namespace Costar

/-- A field of a category, an operator and operands. -/
structure Constraint where
  category : String
  field : String
  operator : Operator
  operands : List Value
deriving Repr

namespace Constraint

/-- The key that a constraint is written under. -/
def key (c : Constraint) : Text :=
  (FilterKey.mk c.field c.operator).text

/-- The operand in the shape in which it is given: the bounds of a range in a list. -/
def operand (c : Constraint) : Value :=
  match c.operator with
  | .range => .list c.operands
  | .compare _ => c.operands.headD .null

/-- The two bounds of a range, the lower first.  Bounds that are not ordered keep their
places. -/
def sortBounds (a b : Value) : List Value :=
  if b.lt a then [b, a] else [a, b]

/-- Reads one entry of a category's filter. -/
def parse (c : Category) (key : Text) (v : Value) : Except Failure Constraint := do
  let k ← FilterKey.parse c key
  match c.fieldType? k.field with
  | none => .error (.unknownField c.name key .undeclared)
  | some type =>
    match k.operator with
    | .compare _ =>
      let operand ← type.coerce c.name k.field v
      .ok ⟨c.name, k.field, k.operator, [operand]⟩
    | .range =>
      match v.items? with
      | some [a, b] =>
        let low ← type.coerce c.name k.field a
        let high ← type.coerce c.name k.field b
        .ok ⟨c.name, k.field, k.operator, sortBounds low high⟩
      | _ => .error (.invalidOperand c.name k.field .notTwoBounds)

/-- Reads one entry of the filter of a category given by name. -/
def parseNamed (category key : Text) (v : Value) : Except Failure Constraint := do
  parse (← Category.named category) key v

end Constraint

end Costar
