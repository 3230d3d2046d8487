import Costar.Proofs.Filter.Compilation
import Costar.Proofs.Filter.Operands
import Costar.Proofs.Record

/-!
# Filters written from their constraints

A constraint is written as an entry of a filter: its key, and its operand in the shape in which
operands are given.  The entry that a constraint has been read from need not be the one that it is
written as, since accepting an operand changes it; but what is written is read as the same
constraint, and a filter written from the constraints of a predicate is compiled to the same
predicate.

Main results:

- Theorem `Constraint.parse_of_parse`: a constraint that has been read reads back as itself.
- Definition `Predicate.rendered`: the filter that the constraints of a predicate are written as.
- Theorem `Predicate.compile_rendered`: it has the keys of the filter that was compiled, and is
  compiled to the same predicate.
-/

namespace Costar

namespace Constraint

variable {c : Category} {key : Text} {v : Value} {k : Constraint}

/-- A constraint that has been read is written under the key that it was read from, and reads back
as itself. -/
theorem parse_of_parse (h : parse c key v = .ok k) :
    k.key = key ∧ parse c k.key k.operand = .ok k := by
  rcases parse_eq_ok.mp h with ⟨hname, hcategory, type, htype, hoperands⟩
  have hkey : k.key = key := FilterKey.text_of_parse hname
  refine ⟨hkey, ?_⟩
  rw [hkey, parse_eq_ok]
  exact ⟨hname, hcategory, type, htype, FieldType.operandsFor_operand hoperands⟩

end Constraint

namespace Predicate

/-! ## Lists of constraints -/

/-- The entries that constraints are written as. -/
def entriesOf (ks : List Constraint) : List (Text × Value) :=
  ks.map fun k => (k.key, k.operand)

theorem keys_entriesOf (ks : List Constraint) :
    Record.keys (entriesOf ks) = ks.map Constraint.key := by
  rw [Record.keys, entriesOf, List.map_map]
  rfl

/-- Constraints that have been read are read again from the entries that they are written as. -/
theorem constraintsOf_entriesOf {c : Category} {entries : List (Text × Value)}
    {ks : List Constraint} (h : constraintsOf c entries = .ok ks) :
    constraintsOf c (entriesOf ks) = .ok ks := by
  unfold constraintsOf entriesOf
  rw [Failure.mapM_eq_ok, List.forall₂_map_left_iff, List.forall₂_same]
  intro k hk
  rcases (Failure.mem_of_mapM_eq_ok h).mp hk with ⟨e, -, he⟩
  exact (Constraint.parse_of_parse he).2

/-! ## Filters of a category -/

variable {node : String} {category : Text} {entries : List (Text × Value)} {p : Predicate}

/-- A filter is compiled to a predicate when its entries are read as the constraints of it. -/
theorem compile_eq_ok_some {c : Category} :
    compile node c (.map entries) = .ok (some p) ↔
      constraintsOf c entries = .ok p.constraints ∧ assemble node p.constraints = some p := by
  have hcompile : compile node c (.map entries) =
      (constraintsOf c entries).map (assemble node) := compile_eq node c (.map entries)
  rw [hcompile]
  constructor
  · intro h
    cases hks : constraintsOf c entries with
    | error f =>
        rw [hks] at h
        cases h
    | ok ks =>
        rw [hks] at h
        have hp : assemble node ks = some p := by injection h
        have hconstraints := constraints_of_assemble hp
        rw [hconstraints]
        exact ⟨rfl, hp⟩
  · rintro ⟨hks, hp⟩
    rw [hks]
    exact congrArg Except.ok hp

/-- The filter that the constraints of a predicate are written as. -/
def rendered (p : Predicate) : Record :=
  Record.ofEntries (entriesOf p.constraints)

/-- The constraints of a predicate have the keys of the filter that it was compiled from, in their
order; and the filter that they are written as is compiled to the same predicate. -/
theorem compile_rendered (hkeys : (Record.keys entries).Nodup)
    (h : compileNamed node category (.map entries) = .ok (some p)) :
    p.constraints.map Constraint.key = Record.keys entries ∧
      compileNamed node category (.map p.rendered) = .ok (some p) := by
  rcases Failure.bind_eq_ok.mp h with ⟨c, hc, hcompile⟩
  obtain ⟨hread, hmade⟩ := compile_eq_ok_some.mp hcompile
  have hsame : p.constraints.map Constraint.key = Record.keys entries :=
    (constraintsOf_eq_ok hread).2
  have hrendered : p.rendered = entriesOf p.constraints := by
    refine Record.merge_of_nodup ?_
    rw [List.nil_append, keys_entriesOf, hsame]
    exact hkeys
  refine ⟨hsame, Failure.bind_eq_ok.mpr ⟨c, hc, ?_⟩⟩
  rw [hrendered, compile_eq_ok_some]
  exact ⟨constraintsOf_entriesOf hread, hmade⟩

/-- A filter with a range whose bounds are not in order, and with a whole number for a float. -/
def reversedBounds : List (Text × Value) :=
  [("air_date_IN", .list [.text "2012-05-01", .text "2010-01-01"]), ("vote_average", .int 8)]

/-- What `reversedBounds` is compiled to is written as a filter that is compiled to the same. -/
theorem compile_rendered_of_reversedBounds :
    ∃ p, compileNamed "n" "episode" (.map reversedBounds) = .ok (some p) ∧
      p.constraints.map Constraint.key = Record.keys reversedBounds ∧
      compileNamed "n" "episode" (.map p.rendered) = .ok (some p) := by
  obtain ⟨p, hp⟩ : ∃ p, compileNamed "n" "episode" (.map reversedBounds) = .ok (some p) :=
    ⟨_, rfl⟩
  have hkeys : (Record.keys reversedBounds).Nodup := by decide
  exact ⟨p, hp, compile_rendered hkeys hp⟩

end Predicate

end Costar
