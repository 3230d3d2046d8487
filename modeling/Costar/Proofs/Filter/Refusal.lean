import Costar.Proofs.Filter.Operands
import Costar.Proofs.Number.Overflow

/-!
# Refused filters

An entry of a filter that cannot be read is refused, as an unknown field or an invalid operand.
There is one exception: a whole number is accepted for a float by rounding it, and one that no
binary64 number is near is neither accepted nor refused.

Main results:

- Definition `Failure.IsRefusal`: the two failures by which filters and ids are refused.
- Theorem `FieldType.coerce_eq_error`: what else an operand can fail by.
- Definition `Constraint.Overflows`: the entries that ask for a number that is too large.
- Theorem `Constraint.parse_eq_integerTooLarge`: they fail by that, and no others do.
-/

namespace Costar

/-! ## Kinds of failures -/

namespace Failure

/-- Whether a failure is one of the two by which filters and ids are refused. -/
def IsRefusal (f : Failure) : Prop :=
  f.reportedAs? = some "UnknownField" ∨ f.reportedAs? = some "InvalidFilterOperand"

theorem isRefusal_unknownField (category field : Text) (problem : FieldProblem) :
    (Failure.unknownField category field problem).IsRefusal :=
  Or.inl rfl

theorem isRefusal_invalidOperand (category field : Text) (problem : OperandProblem) :
    (Failure.invalidOperand category field problem).IsRefusal :=
  Or.inr rfl

theorem not_isRefusal_integerTooLarge : ¬ integerTooLarge.IsRefusal := by
  rintro (h | h) <;> cases h

end Failure

/-! ## Numbers for floats -/

namespace Value

/-- Whether a value is a whole number that no binary64 number is near. -/
def IsOversized (v : Value) : Prop :=
  ∃ n, v = .int n ∧ Binary64.overflowBound ≤ n.natAbs

/-- Whether a value is a number that is accepted for a float. -/
def FitsFloat (v : Value) : Prop :=
  (∃ x, v = .float x) ∨ ∃ n, v = .int n ∧ n.natAbs < Binary64.overflowBound

end Value

namespace FieldType

variable {category field : Text} {t : FieldType} {v : Value} {f : Failure}

/-- A single value that is not accepted is refused, or it is a whole number that is too large for a
float. -/
theorem coerceScalar_eq_error (h : coerceScalar category field t v = .error f) :
    f.IsRefusal ∨ f = .integerTooLarge ∧ t = .float ∧ v.IsOversized := by
  unfold coerceScalar at h
  split at h
  case h_2 n =>
    split at h
    · cases h
    · rename_i hnone
      cases h
      exact Or.inr ⟨rfl, rfl, n, rfl, Binary64.ofInt?_eq_none_iff.mp hnone⟩
  case h_8 =>
    split at h
    · cases h
    · cases h
      exact Or.inl (Failure.isRefusal_invalidOperand ..)
  case h_9 =>
    cases h
    exact Or.inl (Failure.isRefusal_invalidOperand ..)
  all_goals cases h

/-- The values that are accepted for floats. -/
theorem exists_coerce_float : (∃ w, coerce category field .float v = .ok w) ↔ v.FitsFloat := by
  change (∃ w, coerceScalar category field .float v = .ok w) ↔ _
  unfold coerceScalar Value.FitsFloat
  cases v with
  | int n =>
      cases hn : Binary64.ofInt? n with
      | none =>
          have hbound := Binary64.ofInt?_eq_none_iff.mp hn
          simp [hn, hbound]
      | some x =>
          have hbound : ¬ Binary64.overflowBound ≤ n.natAbs := by
            rw [← Binary64.ofInt?_eq_none_iff, hn]
            simp
          simp [hn, Nat.not_le.mp hbound]
  | float x => simp
  | _ => simp

/-- An operand that is not accepted is refused, or it is a whole number that is too large for a
float. -/
theorem coerce_eq_error (h : coerce category field t v = .error f) :
    f.IsRefusal ∨ f = .integerTooLarge ∧ t = .float ∧ v.IsOversized := by
  unfold coerce at h
  split at h
  · exact coerceScalar_eq_error h
  · rename_i item hitem
    split at h
    · rcases Failure.mapM_eq_error.mp (Failure.map_eq_error.mp h) with ⟨_, x, _, -, -, hx⟩
      rcases coerceScalar_eq_error hx with hrefusal | ⟨-, rfl, -⟩
      · exact Or.inl hrefusal
      · -- The items of no list type are floats.
        cases t <;> cases hitem
    · cases h
      exact Or.inl (Failure.isRefusal_invalidOperand ..)

/-- Of the operands only whole numbers for floats are ever too large. -/
theorem coerce_eq_integerTooLarge :
    coerce category field t v = .error .integerTooLarge ↔ t = .float ∧ v.IsOversized := by
  constructor
  · intro h
    rcases coerce_eq_error h with hrefusal | ⟨-, hoversized⟩
    · exact absurd hrefusal Failure.not_isRefusal_integerTooLarge
    · exact hoversized
  · rintro ⟨rfl, n, rfl, hn⟩
    have hnone : Binary64.ofInt? n = none := Binary64.ofInt?_eq_none_iff.mpr hn
    simp only [coerce, itemType?, coerceScalar, hnone]

end FieldType

/-! ## Operands of an operator -/

/-- Whether a value that is read for floats asks for a number that is too large: as the operand of a
comparison, as the first bound of a range, or as the second behind one that is accepted. -/
def Operator.Overflows (op : Operator) (v : Value) : Prop :=
  match op with
  | .compare _ => v.IsOversized
  | .range => ∃ a b, v.items? = some [a, b] ∧ (a.IsOversized ∨ a.FitsFloat ∧ b.IsOversized)

namespace FieldType

variable {category field : Text} {t : FieldType} {op : Operator} {v : Value} {f : Failure}

/-- Operands that cannot be read are refused, or one of them is too large. -/
theorem operandsFor_eq_error (h : operandsFor category field t op v = .error f) :
    f.IsRefusal ∨ f = .integerTooLarge := by
  have hcoerce : ∀ {w}, coerce category field t w = .error f →
      f.IsRefusal ∨ f = .integerTooLarge := fun hw =>
    (coerce_eq_error hw).imp_right And.left
  unfold operandsFor at h
  cases op with
  | compare comparison => exact hcoerce (Failure.map_eq_error.mp h)
  | range =>
      dsimp only at h
      split at h
      · rcases Failure.bind_eq_error.mp h with hlow | ⟨low, -, h⟩
        · exact hcoerce hlow
        · rcases Failure.bind_eq_error.mp h with hhigh | ⟨high, -, h⟩
          · exact hcoerce hhigh
          · cases h
      · cases h
        exact Or.inl (Failure.isRefusal_invalidOperand ..)

/-- Of two bounds the first may be too large, or the second where the first is accepted. -/
theorem bounds_eq_integerTooLarge {a b : Value} :
    (do
      let low ← coerce category field t a
      let high ← coerce category field t b
      Except.ok (Constraint.sortBounds low high)) = .error .integerTooLarge ↔
      t = .float ∧ (a.IsOversized ∨ a.FitsFloat ∧ b.IsOversized) := by
  rw [Failure.bind_eq_error, coerce_eq_integerTooLarge]
  constructor
  · rintro (⟨hfloat, ha⟩ | ⟨low, hlow, h⟩)
    · exact ⟨hfloat, Or.inl ha⟩
    · rcases Failure.bind_eq_error.mp h with hhigh | ⟨_, -, hok⟩
      · rcases coerce_eq_integerTooLarge.mp hhigh with ⟨rfl, hb⟩
        exact ⟨rfl, Or.inr ⟨exists_coerce_float.mp ⟨low, hlow⟩, hb⟩⟩
      · cases hok
  · rintro ⟨rfl, ha | ⟨ha, hb⟩⟩
    · exact Or.inl ⟨rfl, ha⟩
    · rcases exists_coerce_float.mpr ha with ⟨low, hlow⟩
      exact Or.inr ⟨low, hlow,
        Failure.bind_eq_error.mpr (Or.inl (coerce_eq_integerTooLarge.mpr ⟨rfl, hb⟩))⟩

/-- The operands that are too large are those of float fields. -/
theorem operandsFor_eq_integerTooLarge :
    operandsFor category field t op v = .error .integerTooLarge ↔
      t = .float ∧ op.Overflows v := by
  unfold operandsFor Operator.Overflows
  cases op with
  | compare comparison => exact Failure.map_eq_error.trans coerce_eq_integerTooLarge
  | range =>
      dsimp only
      split
      · rename_i a b hitems
        rw [bounds_eq_integerTooLarge]
        simp [hitems]
      · rename_i hnot
        constructor
        · intro h
          cases h
        · rintro ⟨-, a, b, hitems, -⟩
          exact absurd hitems (hnot a b)

end FieldType

/-! ## Entries -/

theorem FilterKey.isRefusal_of_parse {c : Category} {key : Text} {f : Failure}
    (h : parse c key = .error f) : f.IsRefusal := by
  unfold parse at h
  split at h
  · split at h
    · cases h
    · cases h
      exact Failure.isRefusal_unknownField ..
  · split at h
    · cases h
    · cases h
      exact Failure.isRefusal_unknownField ..

namespace Constraint

variable {c : Category} {key : Text} {v : Value} {f : Failure}

/-- An entry that cannot be read is refused for its key, or fails by its operands. -/
theorem parse_error_cases (h : parse c key v = .error f) :
    f.IsRefusal ∨ ∃ name type, FilterKey.parse c key = .ok name ∧
      c.fieldType? name.field = some type ∧
        type.operandsFor c.name name.field name.operator v = .error f := by
  unfold parse at h
  rcases Failure.bind_eq_error.mp h with hname | ⟨name, hname, hrest⟩
  · exact Or.inl (FilterKey.isRefusal_of_parse hname)
  · cases htype : c.fieldType? name.field with
    | none =>
        rw [htype] at hrest
        cases hrest
        exact Or.inl (Failure.isRefusal_unknownField ..)
    | some type =>
        have hparse : parse c key v = .error f := h
        rw [parse_of_key hname htype, Failure.map_eq_error] at hparse
        exact Or.inr ⟨name, type, hname, htype, hparse⟩

/-- An entry that cannot be read is refused, or one of its operands is too large. -/
theorem parse_eq_error (h : parse c key v = .error f) :
    f.IsRefusal ∨ f = .integerTooLarge := by
  rcases parse_error_cases h with hrefusal | ⟨_, _, -, -, hoperands⟩
  · exact Or.inl hrefusal
  · exact FieldType.operandsFor_eq_error hoperands

/-- Whether an entry asks a float field for a number that is too large. -/
def Overflows (c : Category) (key : Text) (v : Value) : Prop :=
  ∃ name, FilterKey.parse c key = .ok name ∧ c.fieldType? name.field = some .float ∧
    name.operator.Overflows v

/-- The entries that fail by a number that is too large are those that ask a float field for one. -/
theorem parse_eq_integerTooLarge :
    parse c key v = .error .integerTooLarge ↔ Overflows c key v := by
  constructor
  · intro h
    rcases parse_error_cases h with hrefusal | ⟨name, type, hname, htype, hoperands⟩
    · exact absurd hrefusal Failure.not_isRefusal_integerTooLarge
    · rcases FieldType.operandsFor_eq_integerTooLarge.mp hoperands with ⟨rfl, hoverflows⟩
      exact ⟨name, hname, htype, hoverflows⟩
  · rintro ⟨name, hname, htype, hoverflows⟩
    rw [parse_of_key hname htype, Failure.map_eq_error]
    exact FieldType.operandsFor_eq_integerTooLarge.mpr ⟨rfl, hoverflows⟩

end Constraint

end Costar
