import Costar.Proofs.Filter.Compilation
import Costar.Proofs.Filter.Keys
import Costar.Proofs.Filter.Operands

/-!
# Well-formed constraints

A constraint that has been read suits the field that it is for.  The field is declared and supports
the operator, there are as many operands as the operator takes, each of them has the form of the
field's type, and the second bound of a range is not below the first.  This is all that reading
ensures, since every constraint with these properties is read from the entry that it is written as.

Compiling takes the number of operands on trust: it fails for a wrong number and for nothing else,
and so never for a constraint that has been read.

Main results:

- Structure `Constraint.WellFormed`: what it is for a constraint to suit its field.
- Theorem `Constraint.wellFormed_of_parse`: constraints that have been read do.
- Theorem `Constraint.WellFormed.parse_operand`: constraints that do can be read.
- Theorem `Constraint.compile_eq_error`: what compiling fails by.
- Theorem `Constraint.read_wellFormed`: all of it together, for categories given by name.
-/

namespace Costar

/-! ## Bounds in order -/

namespace Constraint

variable {a b low high : Value}

/-- Of two bounds that have been put in order the second is not below the first. -/
theorem lt_of_sortBounds (h : sortBounds a b = [low, high]) : high.lt low = false := by
  unfold sortBounds at h
  split at h
  · rename_i hlt
    cases h
    exact Value.lt_asymm hlt
  · rename_i hnot
    cases h
    simpa using hnot

/-- Bounds of which the second is not below the first keep their places. -/
theorem sortBounds_of_not_lt (h : high.lt low = false) : sortBounds low high = [low, high] := by
  unfold sortBounds
  rw [h]
  rfl

end Constraint

/-! ## Operands that have been read -/

namespace FieldType

variable {category field : Text} {t : FieldType} {op : Operator} {v : Value}

/-- The operands that a value gives have the form of the type. -/
theorem has_of_operandsFor {operands : List Value}
    (h : operandsFor category field t op v = .ok operands) : ∀ x ∈ operands, t.Has x := by
  cases op with
  | compare comparison =>
      rcases operandsFor_compare.mp h with ⟨operand, hoperand, rfl⟩
      intro x hx
      obtain rfl := List.mem_singleton.mp hx
      exact has_of_coerce hoperand
  | range =>
      rcases operandsFor_range.mp h with ⟨a, b, first, second, -, hfirst, hsecond, hoperands⟩
      rcases Constraint.sortBounds_cases first second with ⟨low, high, hsorted, -, hbounds⟩
      rw [hoperands, hsorted]
      intro x hx
      have hmem : x = first ∨ x = second := by
        rcases hbounds with ⟨rfl, rfl⟩ | ⟨rfl, rfl⟩
        · exact List.mem_pair.mp hx
        · exact (List.mem_pair.mp hx).symm
      rcases hmem with rfl | rfl
      · exact has_of_coerce hfirst
      · exact has_of_coerce hsecond

end FieldType

/-! ## Well-formed constraints -/

namespace Constraint

variable {c : Category} {key : Text} {v : Value} {k : Constraint}

/-- Whether a constraint suits a category: its field is declared and supports its operator, it has
as many operands as the operator takes, each of them has the form of the field's type, and the
second bound of a range is not below the first. -/
structure WellFormed (c : Category) (k : Constraint) : Prop where
  category : k.category = c.name
  field : ∃ t, c.fieldType? k.field = some t ∧
    (k.operator = .compare .eq ∨ t.isOrdered = true) ∧ ∀ v ∈ k.operands, t.Has v
  count : k.operands.length = k.arity
  inOrder : k.operator = .range → ∀ low high, k.operands = [low, high] → high.lt low = false

/-- A constraint that has been read is well formed. -/
theorem wellFormed_of_parse (h : parse c key v = .ok k) : k.WellFormed c := by
  rcases parse_eq_ok.mp h with ⟨hname, hcategory, type, htype, hoperands⟩
  rcases (FilterKey.parse_eq_ok.mp hname).field with ⟨type', htype', hsupports⟩
  obtain rfl : type = type' := Option.some.inj (htype.symm.trans htype')
  refine ⟨hcategory, ⟨type, htype, hsupports, FieldType.has_of_operandsFor hoperands⟩,
    length_operands (declared_of_parse h).1, ?_⟩
  intro hrange low high hbounds
  rw [hrange, FieldType.operandsFor_range] at hoperands
  rcases hoperands with ⟨-, -, first, second, -, -, -, hsorted⟩
  exact lt_of_sortBounds (hsorted.symm.trans hbounds)

/-- A well-formed constraint has the operands that its operator takes. -/
theorem WellFormed.declared (h : k.WellFormed c) : k.Declared c where
  category := h.category
  field := by
    rcases h.field with ⟨t, ht, -, -⟩
    exact ⟨t, Category.mem_fields ht⟩
  operands := by
    have hcount := h.count
    unfold arity at hcount
    cases hop : k.operator with
    | compare comparison =>
        rw [hop] at hcount
        exact List.length_eq_one_iff.mp hcount
    | range =>
        rw [hop] at hcount
        exact List.length_eq_two.mp hcount

/-- A well-formed constraint is read from the entry that it is written as. -/
theorem WellFormed.parse_operand (h : k.WellFormed c) : parse c k.key k.operand = .ok k := by
  rcases h.field with ⟨t, ht, hsupports, hhas⟩
  have hoperands := h.declared.operands
  refine parse_eq_ok.mpr ⟨FilterKey.parse_eq_ok.mpr ⟨rfl, t, ht, hsupports⟩, h.category, t, ht, ?_⟩
  unfold operand
  cases hop : k.operator with
  | compare comparison =>
      rw [hop] at hoperands
      rcases hoperands with ⟨operand, hoperand⟩
      rw [hoperand, List.forall_mem_singleton] at hhas
      rw [hoperand, FieldType.operandsFor_compare]
      exact ⟨operand, FieldType.coerce_of_has hhas, rfl⟩
  | range =>
      rw [hop] at hoperands
      rcases hoperands with ⟨low, high, hbounds⟩
      have hsorted := sortBounds_of_not_lt (h.inOrder hop low high hbounds)
      rw [hbounds] at hhas
      rw [hbounds, FieldType.operandsFor_range]
      exact ⟨low, high, low, high, rfl, FieldType.coerce_of_has (hhas low (by simp)),
        FieldType.coerce_of_has (hhas high (by simp)), hsorted.symm⟩

/-! ## Compiling -/

/-- Compiling fails for a wrong number of operands and for nothing else. -/
theorem compile_eq_error {node : String} {f : Failure} :
    k.compile node = .error f ↔
      (k.operator = .range ∧ k.operands.length ≠ 2 ∧ f = .operandCount k.operands.length) ∨
        (k.operator ≠ .range ∧ k.operands = [] ∧ f = .missingOperand) := by
  rcases k with ⟨category, field, operator, operands⟩
  unfold compile
  cases operator with
  | compare comparison =>
      cases operands <;> simp [eq_comm (a := f)]
  | range =>
      rcases operands with _ | ⟨low, _ | ⟨high, _ | ⟨further, rest⟩⟩⟩ <;> simp [eq_comm (a := f)]

/-- What an entry is read as is well formed and compiles over every variable.  Every well-formed
constraint is read from some entry, so no more can be said of those that are read.  A constraint
that has not been read may fail to compile, by the wrong number of its operands. -/
theorem read_wellFormed :
    (∀ category key v k, parseNamed category key v = .ok k →
      ∃ c, Category.ofName? category = some c ∧ k.WellFormed c ∧
        ∀ node, ∃ condition parameters, k.compile node = .ok (condition, parameters)) ∧
    (∀ (c : Category) (k : Constraint), k.WellFormed c →
      parseNamed c.name k.key k.operand = .ok k) ∧
    ∀ (k : Constraint) (node : String) (f : Failure), k.compile node = .error f ↔
      (k.operator = .range ∧ k.operands.length ≠ 2 ∧ f = .operandCount k.operands.length) ∨
        (k.operator ≠ .range ∧ k.operands = [] ∧ f = .missingOperand) := by
  refine ⟨?_, ?_, fun k node f => compile_eq_error⟩
  · intro category key v k h
    rcases Failure.bind_eq_ok.mp h with ⟨c, hc, hparse⟩
    have hwellFormed := wellFormed_of_parse hparse
    refine ⟨c, Category.named_eq_ok.mp hc, hwellFormed, fun node => ?_⟩
    exact ⟨k.condition node, k.bindings, compile_eq hwellFormed.declared node⟩
  · intro c k h
    refine Failure.bind_eq_ok.mpr ⟨c, ?_, h.parse_operand⟩
    exact Category.named_eq_ok.mpr c.ofName?_name

/-- A time of day and a text bound the days on which movies were released; they are given the wrong
way round. -/
def releaseBounds : Value :=
  .tuple [.dateTime ⟨⟨2020, 5, 1, by decide⟩, 10, 30, 0⟩, .text "2019-12-31"]

/-- What `releaseBounds` are read as is well formed, is read again from the entry that it is written
as, and compiles; with a third operand it would not. -/
theorem read_releaseBounds :
    ∃ k low high, parseNamed "movie" "release_date_IN" releaseBounds = .ok k ∧
      k.operands = [.date low, .date high] ∧ k.WellFormed .movie ∧
      (∃ condition parameters, k.compile "n" = .ok (condition, parameters)) ∧
      parseNamed "movie" k.key k.operand = .ok k ∧
      Constraint.compile "n" { k with operands := .null :: k.operands } =
        .error (.operandCount 3) := by
  obtain ⟨k, low, high, hread, hoperands, hop⟩ : ∃ k low high,
      parseNamed "movie" "release_date_IN" releaseBounds = .ok k ∧
        k.operands = [.date low, .date high] ∧ k.operator = .range := ⟨_, _, _, rfl, rfl, rfl⟩
  rcases read_wellFormed with ⟨hwellFormed, hagain, hfails⟩
  rcases hwellFormed _ _ _ _ hread with ⟨c, hc, hk, hcompiles⟩
  cases hc
  refine ⟨k, low, high, hread, hoperands, hk, hcompiles "n", hagain _ _ hk, ?_⟩
  rw [hfails]
  exact Or.inl ⟨hop, by simp [hoperands], by simp [hoperands]⟩

end Constraint

end Costar
