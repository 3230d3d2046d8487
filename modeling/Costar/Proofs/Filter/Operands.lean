import Costar.Filter.Constraint
import Costar.Proofs.Failure

/-!
# Accepted operands

An operand that is accepted for a type has the form that values of the type have, and a value of
that form is accepted as it is; so nothing changes when an operand is accepted twice.  The bounds of
a range are put in order once and stay in it.

Main results:

- Definition `FieldType.Has`: the form of the values of a type.
- Theorem `FieldType.has_of_coerce`: accepted operands have it.
- Theorem `FieldType.coerce_of_has`: values that have it are accepted as they are.
- Definition `FieldType.operandsFor`: the operands that a value gives for an operator.
- Theorem `FieldType.operandsFor_operand`: operands are read again as they are.
- Theorem `Constraint.parse_eq_ok`: what an entry of a filter is read as.
-/

namespace Costar

namespace FieldType

variable {category field : Text} {t : FieldType} {v w : Value}

/-! ## Single values -/

/-- Whether a value has the form of a type other than the list types. -/
def HasScalar (t : FieldType) (v : Value) : Prop :=
  match t, v with
  | .int, .int _ | .float, .float _ | .boolean, .bool _ | .string, .text _ | .date, .date _ => True
  | _, _ => False

theorem coerceScalar_of_hasScalar (h : t.HasScalar v) :
    coerceScalar category field t v = .ok v := by
  unfold HasScalar at h
  split at h
  case h_6 => cases h
  all_goals rfl

theorem hasScalar_of_coerceScalar (h : coerceScalar category field t v = .ok w) :
    t.HasScalar w := by
  unfold coerceScalar at h
  split at h
  case h_2 | h_8 =>
    -- A whole number for a float, and a text for a date, may have no value.
    split at h
    · cases h
      trivial
    · cases h
  case h_9 => cases h
  all_goals
    cases h
    trivial

/-! ## Operands -/

/-- Whether a value has the form of a type; lists have become tuples. -/
def Has (t : FieldType) (v : Value) : Prop :=
  match t.itemType? with
  | none => t.HasScalar v
  | some item => ∃ items, v = .tuple items ∧ ∀ x ∈ items, item.HasScalar x

/-- A value that has the form of a type is accepted as it is. -/
theorem coerce_of_has (h : t.Has v) : coerce category field t v = .ok v := by
  unfold Has at h
  unfold coerce
  cases hitem : t.itemType? with
  | none =>
      rw [hitem] at h
      exact coerceScalar_of_hasScalar h
  | some item =>
      rw [hitem] at h
      rcases h with ⟨items, rfl, hitems⟩
      have hall : items.mapM (coerceScalar category field item) = .ok (items.map id) :=
        Failure.mapM_eq_map fun x hx => coerceScalar_of_hasScalar (hitems x hx)
      rw [List.map_id] at hall
      simp only [Value.items?, hall]
      rfl

/-- What is accepted for a type has its form. -/
theorem has_of_coerce (h : coerce category field t v = .ok w) : t.Has w := by
  unfold coerce at h
  unfold Has
  cases hitem : t.itemType? with
  | none =>
      rw [hitem] at h
      exact hasScalar_of_coerceScalar h
  | some item =>
      rw [hitem] at h
      dsimp only at h
      split at h
      · rename_i items _
        cases hresults : items.mapM (coerceScalar category field item) with
        | error e =>
            rw [hresults] at h
            cases h
        | ok results =>
            rw [hresults] at h
            cases h
            refine ⟨results, rfl, ?_⟩
            intro x hx
            rcases (Failure.mem_of_mapM_eq_ok hresults).mp hx with ⟨a, -, ha⟩
            exact hasScalar_of_coerceScalar ha
      · cases h

end FieldType

/-! ## Bounds -/

theorem Value.lt_asymm {a b : Value} (h : b.lt a = true) : a.lt b = false := by
  cases a <;> cases b <;> simp only [Value.lt, Bool.false_eq_true] at h ⊢
  · simp only [decide_eq_true_eq, decide_eq_false_iff_not] at h ⊢
    omega
  · exact Binary64.lt_asymm h
  · simp only [Date.lt, decide_eq_true_eq, decide_eq_false_iff_not] at h ⊢
    omega

/-- Two bounds are put in an order that putting them in order does not change. -/
theorem Constraint.sortBounds_cases (a b : Value) :
    ∃ low high, sortBounds a b = [low, high] ∧ sortBounds low high = [low, high] ∧
      (low = a ∧ high = b ∨ low = b ∧ high = a) := by
  unfold sortBounds
  cases hlt : b.lt a with
  | true =>
      refine ⟨b, a, rfl, ?_, Or.inr ⟨rfl, rfl⟩⟩
      rw [Value.lt_asymm hlt]
      rfl
  | false =>
      refine ⟨a, b, rfl, ?_, Or.inl ⟨rfl, rfl⟩⟩
      rw [hlt]
      rfl

/-! ## Operands of an operator -/

namespace FieldType

/-- The operands that a value gives for an operator: the value itself for a comparison, its two
items in order for a range. -/
def operandsFor (category field : Text) (t : FieldType) (op : Operator) (v : Value) :
    Except Failure (List Value) :=
  match op with
  | .compare _ => (coerce category field t v).map ([·])
  | .range =>
    match v.items? with
    | some [a, b] => do
      let low ← coerce category field t a
      let high ← coerce category field t b
      .ok (Constraint.sortBounds low high)
    | _ => .error (.invalidOperand category field .notTwoBounds)

variable {category field : Text} {t : FieldType} {v : Value}

theorem operandsFor_compare {comparison : Comparison} {operands : List Value} :
    operandsFor category field t (.compare comparison) v = .ok operands ↔
      ∃ operand, coerce category field t v = .ok operand ∧ operands = [operand] := by
  unfold operandsFor
  cases coerce category field t v <;> simp [Except.map, eq_comm]

theorem operandsFor_range {operands : List Value} :
    operandsFor category field t .range v = .ok operands ↔
      ∃ a b low high, v.items? = some [a, b] ∧ coerce category field t a = .ok low ∧
        coerce category field t b = .ok high ∧ operands = Constraint.sortBounds low high := by
  unfold operandsFor
  dsimp only
  split
  · rename_i a b hitems
    rw [Failure.bind_eq_ok]
    simp only [Failure.bind_eq_ok, Except.ok.injEq]
    constructor
    · rintro ⟨low, hlow, high, hhigh, rfl⟩
      exact ⟨a, b, low, high, hitems, hlow, hhigh, rfl⟩
    · rintro ⟨a', b', low, high, hitems', hlow, hhigh, rfl⟩
      rw [hitems] at hitems'
      cases hitems'
      exact ⟨low, hlow, high, hhigh, rfl⟩
  · rename_i hnot
    constructor
    · intro h
      cases h
    · rintro ⟨a, b, -, -, hitems, -⟩
      exact absurd hitems (hnot a b)

/-- Operands in the shape in which they are given are read as they are. -/
theorem operandsFor_operand {k : Constraint}
    (h : operandsFor category field t k.operator v = .ok k.operands) :
    operandsFor category field t k.operator k.operand = .ok k.operands := by
  unfold Constraint.operand
  cases hop : k.operator with
  | compare comparison =>
      rw [hop, operandsFor_compare] at h
      rcases h with ⟨operand, hoperand, hoperands⟩
      rw [operandsFor_compare]
      refine ⟨operand, ?_, hoperands⟩
      rw [hoperands]
      exact coerce_of_has (has_of_coerce hoperand)
  | range =>
      rw [hop, operandsFor_range] at h
      rcases h with ⟨a, b, first, second, -, hfirst, hsecond, hoperands⟩
      rcases Constraint.sortBounds_cases first second with ⟨low, high, hsorted, hagain, hbounds⟩
      have hhas : t.Has low ∧ t.Has high := by
        rcases hbounds with ⟨rfl, rfl⟩ | ⟨rfl, rfl⟩
        · exact ⟨has_of_coerce hfirst, has_of_coerce hsecond⟩
        · exact ⟨has_of_coerce hsecond, has_of_coerce hfirst⟩
      rw [hoperands, hsorted, operandsFor_range]
      exact ⟨low, high, low, high, rfl, coerce_of_has hhas.1, coerce_of_has hhas.2, hagain.symm⟩

end FieldType

/-! ## Entries -/

namespace Constraint

variable {c : Category} {key : Text} {v : Value} {k : Constraint}

/-- An entry is read by its key, and by its operand as the key asks for it. -/
theorem parse_of_key {name : FilterKey} {type : FieldType}
    (hname : FilterKey.parse c key = .ok name) (htype : c.fieldType? name.field = some type) :
    parse c key v = (type.operandsFor c.name name.field name.operator v).map
      (Constraint.mk c.name name.field name.operator) := by
  unfold parse FieldType.operandsFor
  rw [hname]
  change (match c.fieldType? name.field with | none => _ | some type => _) = _
  rw [htype]
  cases name.operator with
  | compare comparison =>
      dsimp only
      cases type.coerce c.name name.field v <;> rfl
  | range =>
      dsimp only
      rcases v.items? with _ | (_ | ⟨a, _ | ⟨b, _ | ⟨_, _⟩⟩⟩)
      case some.cons.cons.nil =>
        change (do
            let low ← type.coerce c.name name.field a
            let high ← type.coerce c.name name.field b
            Except.ok (Constraint.mk c.name name.field .range (sortBounds low high))) =
          Except.map (Constraint.mk c.name name.field .range) (do
            let low ← type.coerce c.name name.field a
            let high ← type.coerce c.name name.field b
            Except.ok (sortBounds low high))
        cases type.coerce c.name name.field a with
        | error f => rfl
        | ok low => cases type.coerce c.name name.field b <;> rfl
      all_goals rfl

/-- What an entry that can be read is read as. -/
theorem parse_eq_ok :
    parse c key v = .ok k ↔ FilterKey.parse c key = .ok ⟨k.field, k.operator⟩ ∧
      k.category = c.name ∧ ∃ type, c.fieldType? k.field = some type ∧
        type.operandsFor c.name k.field k.operator v = .ok k.operands := by
  constructor
  · intro h
    rcases Failure.bind_eq_ok.mp h with ⟨name, hname, hrest⟩
    cases htype : c.fieldType? name.field with
    | none =>
        rw [htype] at hrest
        cases hrest
    | some type =>
        rw [parse_of_key hname htype] at h
        cases hoperands : type.operandsFor c.name name.field name.operator v with
        | error f =>
            rw [hoperands] at h
            cases h
        | ok operands =>
            rw [hoperands] at h
            cases h
            exact ⟨hname, rfl, type, htype, hoperands⟩
  · rintro ⟨hname, hcategory, type, htype, hoperands⟩
    rw [parse_of_key hname htype, hoperands, ← hcategory]
    rfl

end Constraint

end Costar
