import Costar.Failure
import Costar.Schema

/-!
# Filter keys

A filter key is the name of a declared field, followed by the suffix of an operator; only
ordered fields take a suffix.

Main definition: `FilterKey.parse`.  Main statement: `FilterKey.text_of_parse`, a key that is
read is spelled by what it is read as.
-/

namespace Costar

/-- A field and what is asked of it. -/
structure FilterKey where
  field : String
  operator : Operator
deriving DecidableEq, Repr

namespace Category

/-- The category of a name; other names are refused. -/
def named (name : Text) : Except Failure Category :=
  match ofName? name with
  | some c => .ok c
  | none => .error (.unknownField name "*" (.undeclaredCategory name))

end Category

namespace FilterKey

/-- The spelling of a key. -/
def text (k : FilterKey) : String :=
  k.field ++ k.operator.suffix

/-- The declared field that a key spells together with the suffix of an operator. -/
def reading? (c : Category) (key : Text) (op : Operator) :
    Option (String × FieldType × Operator) :=
  (c.fields.find? fun f => (FilterKey.mk f.1 op).text == key).map fun f => (f.1, f.2, op)

/-- Reads a key of a category: as a field with the first suffix that leaves a declared field, or
else as a field asked to be equal. -/
def parse (c : Category) (key : Text) : Except Failure FilterKey :=
  match Operator.suffixed.findSome? (reading? c key) with
  | some (field, type, op) =>
    if type.isOrdered then .ok ⟨field, op⟩
    else .error (.unknownField c.name key (.unordered field op))
  | none =>
    match reading? c key (.compare .eq) with
    | some (field, _, op) => .ok ⟨field, op⟩
    | none => .error (.unknownField c.name key .undeclared)

/-- Reads a key of a category given by name. -/
def parseNamed (category key : Text) : Except Failure FilterKey := do
  parse (← Category.named category) key

theorem text_of_reading? {c : Category} {key : Text} {field : String} {op o : Operator}
    {t : FieldType} (h : reading? c key op = some (field, t, o)) : text ⟨field, o⟩ = key := by
  simp only [reading?, Option.map_eq_some_iff, Prod.mk.injEq] at h
  obtain ⟨f, hf, rfl, rfl, rfl⟩ := h
  simpa using List.find?_some hf

/-- A key that is read is spelled by what it is read as. -/
theorem text_of_parse {c : Category} {key : Text} {k : FilterKey} (h : parse c key = .ok k) :
    k.text = key := by
  unfold parse at h
  split at h
  · next field t op hr =>
    split at h
    · obtain ⟨op', _, ho⟩ := List.exists_of_findSome?_eq_some hr
      cases h
      exact text_of_reading? ho
    · cases h
  · split at h
    · next hr =>
      cases h
      exact text_of_reading? hr
    · cases h

end FilterKey

end Costar
