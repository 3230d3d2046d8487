import Costar.Failure
import Costar.Schema

/-!
# Filter operands

An operand is accepted for a field when it has the field's type or can be taken for a value of
it: whole numbers for floats, texts and times for dates, lists for tuples.
-/

namespace Costar

namespace FieldType

/-- The type of the items of a list type. -/
def itemType? : FieldType → Option FieldType
  | .stringList => some .string
  | .intList => some .int
  | _ => none

/-- Accepts a value for a type other than the list types. -/
def coerceScalar (category field : Text) (t : FieldType) (v : Value) : Except Failure Value :=
  match t, v with
  | .int, .int n => .ok (.int n)
  | .float, .int n =>
    match Binary64.ofInt? n with
    | some x => .ok (.float x)
    | none => .error .integerTooLarge
  | .float, .float x => .ok (.float x)
  | .boolean, .bool b => .ok (.bool b)
  | .string, .text s => .ok (.text s)
  | .date, .date d => .ok (.date d)
  | .date, .dateTime t => .ok (.date t.date)
  | .date, .text s =>
    match s.string?.bind Date.ofIso? with
    | some d => .ok (.date d)
    | none => .error (.invalidOperand category field (.notDate s))
  | t, v => .error (.invalidOperand category field (.expected t.name v.kind))

end FieldType

namespace Value

/-- The items of a list or tuple. -/
def items? : Value → Option (List Value)
  | .list items => some items
  | .tuple items => some items
  | _ => none

end Value

namespace FieldType

/-- Accepts a value for a type.  A list type takes a list or tuple, and the result is a tuple. -/
def coerce (category field : Text) (t : FieldType) (v : Value) : Except Failure Value :=
  match t.itemType? with
  | none => coerceScalar category field t v
  | some item =>
    match v.items? with
    | some items => (items.mapM (coerceScalar category field item)).map .tuple
    | none => .error (.invalidOperand category field (.expected "a list" v.kind))

/-- Accepts a value for a type given by name.  No value is accepted for a name that is no
type. -/
def coerceNamed (category field type : Text) (v : Value) : Except Failure Value :=
  match ofName? type with
  | some t => coerce category field t v
  | none => .error (.invalidOperand category field (.expected type v.kind))

end FieldType

end Costar
