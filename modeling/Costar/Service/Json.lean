import Costar.Value

/-!
# JSON

Which values are JSON: numbers that are finite, whole texts, lists, and maps under whole names.

Main definitions: `Value.isJson` and `Value.depth`.
-/

namespace Costar.Value

mutual

/-- Whether a value is JSON. -/
def isJson : Value → Bool
  | .null => true
  | .bool _ => true
  | .int _ => true
  | .float x => x.isFinite
  | .text t => t.isWhole
  | .list items => areJson items
  | .map entries => entriesJson entries
  | _ => false

/-- Whether all items are JSON. -/
def areJson : List Value → Bool
  | [] => true
  | v :: vs => isJson v && areJson vs

/-- Whether all entries are JSON. -/
def entriesJson : List (Text × Value) → Bool
  | [] => true
  | (name, v) :: es => name.isWhole && isJson v && entriesJson es

end

mutual

/-- The number of values that stand inside each other, this one included. -/
def depth : Value → Nat
  | .list items => itemsDepth items + 1
  | .tuple items => itemsDepth items + 1
  | .map entries => entriesDepth entries + 1
  | _ => 1

/-- The greatest depth of an item. -/
def itemsDepth : List Value → Nat
  | [] => 0
  | v :: vs => max (depth v) (itemsDepth vs)

/-- The greatest depth of an entry. -/
def entriesDepth : List (Text × Value) → Nat
  | [] => 0
  | (_, v) :: es => max (depth v) (entriesDepth es)

end

/-- Whether a value is a map. -/
def isMap : Value → Bool
  | .map _ => true
  | _ => false

end Costar.Value
