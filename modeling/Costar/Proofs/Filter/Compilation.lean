import Costar.Proofs.Filter.Conditions

/-!
# Filters in compiled form

What becomes of constraints that have been read can be written down without the steps that may
fail.  The condition of a constraint comes from its category, field and operator alone; its operands
are found in its parameters and nowhere else.

Main results:

- Definition `Constraint.SentAs`: what a query sends for an operand.
- Definitions `Constraint.condition` and `Constraint.bindings`: what a constraint is compiled to.
- Theorem `Constraint.compile_eq`: compiling a declared constraint succeeds with them.
- Definition `Predicate.assemble`: the predicate that constraints make.
- Theorem `Predicate.ofConstraints_eq`: compiling declared constraints succeeds with it.
- Theorem `Predicate.compile_eq`: a filter is compiled to the predicate of its constraints.
-/

namespace Costar

open Cypher

namespace Constraint

variable {c : Category} {k : Constraint}

/-! ## Single constraints -/

/-- What a query sends for an operand: the items of a tuple as a list, anything else as it is. -/
inductive SentAs : Value → Value → Prop where
  | items (vs : List Value) : SentAs (.tuple vs) (.list vs)
  | same {v : Value} (h : ∀ vs, v ≠ .tuple vs) : SentAs v v

theorem sentAs_iff {v w : Value} : SentAs v w ↔ parameterValue v = w := by
  constructor
  · intro h
    cases h with
    | items vs => rfl
    | same h =>
        cases v with
        | tuple vs => exact absurd rfl (h vs)
        | _ => rfl
  · rintro rfl
    cases v with
    | tuple vs => exact .items vs
    | _ => exact .same fun _ => Value.noConfusion

/-- The parameters of a constraint, with its operands as a query takes them. -/
def bindings (k : Constraint) : Record String :=
  k.names.zip (k.operands.map parameterValue)

/-- The condition of a constraint. -/
def condition (node : String) (k : Constraint) : Condition :=
  match k.operator with
  | .compare comparison => .compare ⟨node, k.field⟩ comparison k.parameterName
  | .range =>
    .group (.both (.compare ⟨node, k.field⟩ .ge (k.parameterName ++ "_low"))
      (.compare ⟨node, k.field⟩ .le (k.parameterName ++ "_high")))

/-- A declared constraint is compiled to its condition and its parameters. -/
theorem compile_eq (hk : k.Declared c) (node : String) :
    k.compile node = .ok (k.condition node, k.bindings) := by
  have hoperands := hk.operands
  unfold compile condition bindings names
  cases hop : k.operator with
  | compare comparison =>
      rw [hop] at hoperands
      rcases hoperands with ⟨operand, hoperand⟩
      rw [hoperand]
      rfl
  | range =>
      rw [hop] at hoperands
      rcases hoperands with ⟨low, high, hlowHigh⟩
      rw [hlowHigh]
      rfl

/-- The condition of a constraint refers to its parameters and to no others. -/
theorem parameters_condition (node : String) (k : Constraint) :
    (k.condition node).parameters = k.names := by
  unfold condition names
  cases k.operator <;> rfl

/-- A range has two parameters, a comparison one. -/
def arity (k : Constraint) : Nat :=
  match k.operator with
  | .compare _ => 1
  | .range => 2

theorem length_names (k : Constraint) : k.names.length = k.arity := by
  unfold names arity
  cases k.operator <;> rfl

theorem length_operands (hk : k.Declared c) : k.operands.length = k.arity := by
  have hoperands := hk.operands
  unfold arity
  cases hop : k.operator with
  | compare comparison =>
      rw [hop] at hoperands
      rcases hoperands with ⟨operand, hoperand⟩
      rw [hoperand]
      rfl
  | range =>
      rw [hop] at hoperands
      rcases hoperands with ⟨low, high, hlowHigh⟩
      rw [hlowHigh]
      rfl

/-- Every parameter of a constraint is bound. -/
theorem keys_bindings (hk : k.Declared c) : Record.keys k.bindings = k.names := by
  refine List.map_fst_zip (Nat.le_of_eq ?_)
  rw [List.length_map, length_names, length_operands hk]

/-- Where a record has the bindings of a constraint, each of its names is bound to what its operand
is sent as. -/
theorem forall₂_names (hk : k.Declared c) {r : Record String}
    (hr : ∀ b ∈ k.bindings, r.get? b.1 = some b.2) :
    List.Forall₂ (fun name operand => ∃ v, r.get? name = some v ∧ SentAs operand v)
      k.names k.operands := by
  rw [List.forall₂_iff_zip]
  refine ⟨by rw [length_names, length_operands hk], ?_⟩
  intro name operand hmem
  refine ⟨parameterValue operand, hr (name, parameterValue operand) ?_, sentAs_iff.mpr rfl⟩
  rw [bindings, List.zip_map_right]
  exact List.mem_map_of_mem (f := Prod.map id parameterValue) hmem

theorem keys_flatMap_bindings {ks : List Constraint} (hks : ∀ k ∈ ks, k.Declared c) :
    Record.keys (ks.flatMap bindings) = ks.flatMap names := by
  rw [Record.keys, List.map_flatMap]
  exact List.flatMap_congr fun k hk => keys_bindings (hks k hk)

end Constraint

/-! ## Filters of a category -/

namespace Predicate

/-- The predicate that constraints make; none where there are none. -/
def assemble (node : String) (ks : List Constraint) : Option Predicate :=
  match ks with
  | [] => none
  | first :: rest => some {
      condition := .conjunction (first.condition node) (rest.map (·.condition node))
      parameters := Record.merge [] (ks.flatMap Constraint.bindings)
      constraints := ks }

theorem assemble_eq_none {node : String} {ks : List Constraint} :
    assemble node ks = none ↔ ks = [] := by
  cases ks <;> simp [assemble]

/-- Where there are constraints they make a predicate. -/
theorem exists_assemble_of_mem {ks : List Constraint} {k : Constraint} (hk : k ∈ ks)
    (node : String) : ∃ p, assemble node ks = some p := by
  cases ks with
  | nil => cases hk
  | cons first rest => exact ⟨_, rfl⟩

theorem constraints_of_assemble {node : String} {ks : List Constraint} {p : Predicate}
    (h : assemble node ks = some p) : p.constraints = ks := by
  cases ks with
  | nil => cases h
  | cons first rest =>
      cases h
      rfl

theorem parameters_of_assemble {node : String} {ks : List Constraint} {p : Predicate}
    (h : assemble node ks = some p) :
    p.parameters = Record.merge [] (ks.flatMap Constraint.bindings) := by
  cases ks with
  | nil => cases h
  | cons first rest =>
      cases h
      rfl

/-- Declared constraints are compiled to the predicate that they make. -/
theorem ofConstraints_eq {c : Category} {ks : List Constraint} (hks : ∀ k ∈ ks, k.Declared c)
    (node : String) : ofConstraints node ks = .ok (assemble node ks) := by
  have hparts : ks.mapM (Constraint.compile node) =
      .ok (ks.map fun k => (k.condition node, k.bindings)) :=
    Failure.mapM_eq_map fun k hk => Constraint.compile_eq (hks k hk) node
  unfold ofConstraints
  rw [hparts]
  cases ks with
  | nil => rfl
  | cons first rest =>
      have hmerge : ((first :: rest).map fun k => (k.condition node, k.bindings)).foldl
          (fun acc part => Record.merge acc part.2) [] =
          Record.merge [] ((first :: rest).flatMap Constraint.bindings) := by
        rw [List.foldl_map, Record.merge, List.foldl_flatMap]
        rfl
      change Except.ok (some _) = Except.ok (some _)
      rw [hmerge]
      simp only [List.map_map]
      rfl

/-- A filter is compiled to the predicate that its constraints make, once they have been read. -/
theorem compile_eq (node : String) (c : Category) (filters : Value) :
    compile node c filters = (entries filters >>= constraintsOf c).map (assemble node) := by
  have hcompile : compile node c filters =
      entries filters >>= constraintsOf c >>= ofConstraints node := by
    unfold compile
    rw [bind_assoc]
  rw [hcompile]
  cases hks : entries filters >>= constraintsOf c with
  | error f => rfl
  | ok ks =>
      rcases Failure.bind_eq_ok.mp hks with ⟨_, -, hread⟩
      exact ofConstraints_eq (constraintsOf_eq_ok hread).1 node

end Predicate

end Costar
