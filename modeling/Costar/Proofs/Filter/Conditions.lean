import Costar.Graph.Path
import Costar.Proofs.Cypher.Meaning
import Costar.Proofs.Filter.Parameters
import Costar.Proofs.Record

/-!
# What a filter's condition says

A constraint is compiled to a condition on a node and the parameters that the condition refers to.
With these parameters in their places, the condition is true of a node exactly when the node
satisfies the constraint, and a category's condition exactly when it satisfies all of them.

Main results:

- Definition `Constraint.Holds`: what it is for a node to satisfy a constraint.
- Theorem `Constraint.compiled_of_compile`: the condition of a constraint says that it is satisfied.
- Theorem `Predicate.compile_eq_ok`: what a category's filter is compiled to.
- Theorem `Predicate.Made.truth`: its condition says that all constraints are satisfied.
-/

namespace Costar

open Cypher

/-! ## Names -/

/-- Whether a text can be a name, as it is tested. -/
def Cypher.checkName (s : String) : Bool :=
  !s.toList.isEmpty && s.toList.all isWordChar && !Token.separators.contains (.word s.toList)

theorem Cypher.checkName_eq_true {s : String} : checkName s = true ↔ IsName s := by
  simp only [checkName, Bool.and_eq_true, Bool.not_eq_true', List.isEmpty_eq_false_iff,
    List.all_eq_true]
  constructor
  · rintro ⟨⟨hne, hword⟩, hseparator⟩
    exact ⟨hne, hword, by simpa using hseparator⟩
  · intro h
    exact ⟨⟨h.nonempty, h.isWord⟩, by simpa using h.not_separator⟩

instance (s : String) : Decidable (IsName s) :=
  decidable_of_iff (checkName s = true) checkName_eq_true

theorem Category.isName_field {c : Category} {field : String} {type : FieldType}
    (h : (field, type) ∈ c.fields) : IsName field := by
  have hall : ∀ c : Category, ∀ f ∈ c.fields, IsName f.1 := by
    intro c
    cases c <;> decide
  exact hall c (field, type) h

/-- A word with an underscore is a name. -/
theorem Cypher.IsName.of_underscore {s : String} (hword : ∀ c ∈ s.toList, isWordChar c = true)
    (hmem : '_' ∈ s.toList) : IsName s where
  nonempty := List.ne_nil_of_mem hmem
  isWord := hword
  not_separator := by
    intro h
    simp only [Token.separators, Token.andWord, Token.orWord, Token.whereWord, Token.returnWord,
      List.mem_cons, Token.word.injEq, List.not_mem_nil, or_false] at h
    rcases h with h | h | h | h <;> rw [h] at hmem <;> exact absurd hmem (by decide)

namespace Constraint

variable {k : Constraint} {c : Category}

theorem isName_of_mem_names (hk : k.Declared c) {name : String} (h : name ∈ k.names) :
    IsName name := by
  rcases toList_of_mem_names h with ⟨ending, hending, hname⟩
  rcases hk.field with ⟨type, hfield⟩
  have hcategory : ∀ c : Category, c.name.toList.all isWordChar = true := by
    intro c
    cases c <;> decide
  have hendings : ∀ e ∈ allEndings, e.all isWordChar = true := by decide
  refine IsName.of_underscore ?_ ?_
  · rw [hname, hk.category]
    simp only [List.forall_mem_append, List.forall_mem_cons]
    refine ⟨List.all_eq_true.mp (hcategory c), by decide, (Category.isName_field hfield).isWord,
      ?_⟩
    have hmem := List.mem_flatMap.mpr ⟨_, mem_all k.operator, hending⟩
    exact List.all_eq_true.mp (hendings ending hmem)
  · rw [hname]
    simp

/-! ## Conditions of constraints -/

/-- Whether a node satisfies a constraint: its field compares with the operand as the operator asks,
or lies between the two operands, that is, is `>=` the lower and `<=` the upper. -/
def Holds (compare : Comparison → Value → Value → Truth) (k : Constraint) (n : Node) : Prop :=
  match k.operator, k.operands with
  | .compare comparison, [operand] =>
    compare comparison (Record.getOrNull n.properties k.field) (parameterValue operand) = some true
  | .range, [low, high] =>
    compare .ge (Record.getOrNull n.properties k.field) (parameterValue low) = some true ∧
      compare .le (Record.getOrNull n.properties k.field) (parameterValue high) = some true
  | _, _ => False

/-- What a declared constraint is compiled to. -/
structure Compiled (node : String) (k : Constraint) (condition : Condition)
    (parameters : Record String) : Prop where
  isAtom : condition.isAtom = true
  legible : IsName node → condition.Legible
  keys : Record.keys parameters = k.names
  truth : ∀ (w : Situation) (bound : List (String × Node)) (n : Node),
    bound.lookup node = some n →
    (∀ name v, (name, v) ∈ parameters → w.parameters.get? name = some v) →
    (condition.truth w bound = some true ↔ k.Holds w.compare n)

/-- The condition of a constraint says that it is satisfied. -/
theorem compiled_of_compile (hk : k.Declared c) {node : String} {condition : Condition}
    {parameters : Record String} (h : k.compile node = .ok (condition, parameters)) :
    k.Compiled node condition parameters := by
  rcases hk.field with ⟨type, hfield⟩
  have hisField := Category.isName_field hfield
  have hisName : ∀ name ∈ k.names, IsName name := fun name => isName_of_mem_names hk
  have hoperands := hk.operands
  unfold compile at h
  cases hop : k.operator with
  | compare comparison =>
      rw [hop] at h hoperands
      rcases hoperands with ⟨operand, hoperand⟩
      rw [hoperand] at h
      cases h
      have hnames : k.names = [k.parameterName] := by rw [names, hop]
      rw [hnames] at hisName
      refine ⟨rfl, ?_, ?_, ?_⟩
      · intro hnode
        exact ⟨hnode, hisField, hisName _ List.mem_cons_self⟩
      · rw [hnames]
        rfl
      · intro w bound n hn hparameters
        rw [Condition.truth_compare hn (hparameters _ _ List.mem_cons_self), Holds, hop, hoperand]
  | range =>
      rw [hop] at h hoperands
      rcases hoperands with ⟨low, high, hlowHigh⟩
      rw [hlowHigh] at h
      cases h
      have hnames : k.names = [k.parameterName ++ "_low", k.parameterName ++ "_high"] := by
        rw [names, hop]
      rw [hnames] at hisName
      have hlow := hisName _ List.mem_cons_self
      have hhigh := hisName _ (List.mem_cons_of_mem _ List.mem_cons_self)
      refine ⟨rfl, ?_, ?_, ?_⟩
      · intro hnode
        exact ⟨⟨hnode, hisField, hlow⟩, ⟨hnode, hisField, hhigh⟩, rfl, rfl⟩
      · rw [hnames]
        rfl
      · intro w bound n hn hparameters
        have hgroup : ∀ body : Condition, (Condition.group body).truth w bound =
            body.truth w bound := fun _ => rfl
        rw [hgroup, Condition.truth_both,
          Condition.truth_compare hn (hparameters _ _ List.mem_cons_self),
          Condition.truth_compare hn
            (hparameters _ _ (List.mem_cons_of_mem _ List.mem_cons_self)),
          Holds, hop, hlowHigh]

end Constraint

/-! ## Conditions of filters -/

namespace Predicate

/-- What a category's filter is compiled to, from its constraints and what each of them is compiled
to. -/
structure Made (node : String) (c : Category) (p : Predicate)
    (parts : List (Condition × Record String)) : Prop where
  declared : ∀ k ∈ p.constraints, k.Declared c
  compiled : List.Forall₂ (fun (k : Constraint) part => k.Compiled node part.1 part.2)
    p.constraints parts
  condition : ∃ first rest, parts.map (·.1) = first :: rest ∧
    p.condition = .conjunction first rest
  parameters : p.parameters = parts.foldl (fun acc part => Record.merge acc part.2) []

theorem constraintsOf_eq_ok {c : Category} {entries : List (Text × Value)}
    {ks : List Constraint} (h : constraintsOf c entries = .ok ks) :
    (∀ k ∈ ks, k.Declared c) ∧ ks.map Constraint.key = entries.map (·.1) := by
  have hall := Failure.mapM_eq_ok.mp h
  clear h
  induction hall with
  | nil => exact ⟨by simp, rfl⟩
  | cons hparse _ ih =>
      rcases Constraint.declared_of_parse hparse with ⟨hdeclared, hkey⟩
      refine ⟨List.forall_mem_cons.mpr ⟨hdeclared, ih.1⟩, ?_⟩
      rw [List.map_cons, List.map_cons, hkey, ih.2]

/-- A filter is compiled from its constraints, and to nothing only if it has none. -/
theorem compile_eq_ok {node : String} {c : Category} {filters : Value} {found : Option Predicate}
    (h : compile node c filters = .ok found) :
    ∃ entries ks, Predicate.entries filters = .ok entries ∧ constraintsOf c entries = .ok ks ∧
      (found = none → entries = []) ∧
      ∀ p, found = some p → p.constraints = ks ∧ ∃ parts, p.Made node c parts := by
  rcases Failure.bind_eq_ok.mp h with ⟨entries, hentries, h⟩
  rcases Failure.bind_eq_ok.mp h with ⟨ks, hks, h⟩
  rcases constraintsOf_eq_ok hks with ⟨hdeclared, hkeys⟩
  refine ⟨entries, ks, hentries, hks, ?_⟩
  rcases Failure.bind_eq_ok.mp h with ⟨parts, hparts, h⟩
  have hcompiled := Failure.mapM_eq_ok.mp hparts
  split at h
  · rename_i hnone
    cases h
    refine ⟨fun _ => ?_, ?_⟩
    · have hlength := hcompiled.length_eq
      have hempty := congrArg List.length hkeys
      rw [List.map_eq_nil_iff.mp hnone, List.length_nil] at hlength
      rw [List.length_map, List.length_map, hlength] at hempty
      exact List.eq_nil_of_length_eq_zero hempty.symm
    · intro p hp
      cases hp
  · rename_i first rest hsome
    cases h
    refine ⟨fun hp => (by cases hp), ?_⟩
    intro p hp
    cases hp
    refine ⟨rfl, parts, hdeclared, ?_, ⟨first, rest, hsome, rfl⟩, rfl⟩
    refine ((List.forall₂_and_left ks parts).mpr ⟨hdeclared, hcompiled⟩).imp ?_
    rintro k ⟨condition, parameters⟩ ⟨hk, hpart⟩
    exact Constraint.compiled_of_compile hk hpart

variable {node : String} {c : Category} {p : Predicate} {parts : List (Condition × Record String)}

theorem keys_flatMap {ks : List Constraint}
    (h : List.Forall₂ (fun (k : Constraint) part => k.Compiled node part.1 part.2) ks parts) :
    Record.keys (parts.flatMap (·.2)) = ks.flatMap Constraint.names := by
  induction h with
  | nil => rfl
  | cons hpart _ ih =>
      rw [List.flatMap_cons, List.flatMap_cons, ← ih, ← hpart.keys]
      exact List.map_append

/-- The parameters of a category's filter are those of its constraints. -/
theorem Made.parameters_eq (hp : p.Made node c parts)
    (hkeys : (p.constraints.map Constraint.key).Nodup) :
    p.parameters = parts.flatMap (·.2) := by
  have hnodup : (Record.keys (parts.flatMap (·.2))).Nodup := by
    rw [keys_flatMap hp.compiled]
    exact Constraint.nodup_names hp.declared hkeys
  have hmerge : parts.foldl (fun acc part => Record.merge acc part.2) [] =
      Record.merge [] (parts.flatMap (·.2)) := by
    rw [Record.merge, List.foldl_flatMap]
    rfl
  rw [hp.parameters, hmerge]
  exact Record.merge_of_nodup hnodup

theorem Made.keys_parameters (hp : p.Made node c parts)
    (hkeys : (p.constraints.map Constraint.key).Nodup) :
    Record.keys p.parameters = p.constraints.flatMap Constraint.names := by
  rw [hp.parameters_eq hkeys, keys_flatMap hp.compiled]

theorem exists_of_mem_right {ks : List Constraint}
    (h : List.Forall₂ (fun (k : Constraint) part => k.Compiled node part.1 part.2) ks parts)
    {part : Condition × Record String} (hpart : part ∈ parts) :
    ∃ k ∈ ks, k.Compiled node part.1 part.2 := by
  rcases List.getElem_of_mem hpart with ⟨i, hi, rfl⟩
  rcases List.forall₂_iff_get.mp h with ⟨hlength, hget⟩
  exact ⟨ks[i], List.getElem_mem (by omega), hget i (by omega) hi⟩

/-- The condition of a category's filter is a legible conjunction. -/
theorem Made.legible (hp : p.Made node c parts) (hnode : IsName node) :
    p.condition.Legible ∧ p.condition.isConjunction = true := by
  rcases hp.condition with ⟨first, rest, hparts, hcondition⟩
  have hall : ∀ condition ∈ parts.map (·.1), condition.Legible ∧ condition.isAtom = true := by
    intro condition hmem
    rcases List.mem_map.mp hmem with ⟨part, hpart, rfl⟩
    rcases exists_of_mem_right hp.compiled hpart with ⟨k, -, hk⟩
    exact ⟨hk.legible hnode, hk.isAtom⟩
  rw [hparts, List.forall_mem_cons] at hall
  rcases hall with ⟨⟨hfirst, hatom⟩, hrest⟩
  rw [hcondition]
  exact Condition.legible_conjunction hfirst (Condition.isConjunction_of_isAtom hatom) hrest

theorem truth_parts {ks : List Constraint}
    (h : List.Forall₂ (fun (k : Constraint) part => k.Compiled node part.1 part.2) ks parts)
    {w : Situation} {bound : List (String × Node)} {n : Node} (hn : bound.lookup node = some n)
    (hparameters : ∀ name v, (name, v) ∈ parts.flatMap (·.2) →
      w.parameters.get? name = some v) :
    (∀ part ∈ parts, part.1.truth w bound = some true) ↔ ∀ k ∈ ks, k.Holds w.compare n := by
  induction h with
  | nil => simp
  | @cons k part ks parts hpart _ ih =>
      have hfirst : ∀ name v, (name, v) ∈ part.2 → w.parameters.get? name = some v := by
        intro name v hmem
        exact hparameters name v (List.mem_append_left _ hmem)
      have hrest : ∀ name v, (name, v) ∈ parts.flatMap (·.2) →
          w.parameters.get? name = some v := by
        intro name v hmem
        exact hparameters name v (List.mem_append_right _ hmem)
      rw [List.forall_mem_cons, List.forall_mem_cons, hpart.truth w bound n hn hfirst, ih hrest]

/-- The condition of a category's filter says that all its constraints are satisfied. -/
theorem Made.truth (hp : p.Made node c parts) (hkeys : (p.constraints.map Constraint.key).Nodup)
    {w : Situation} {bound : List (String × Node)} {n : Node} (hn : bound.lookup node = some n)
    (hparameters : ∀ name v, (name, v) ∈ p.parameters → w.parameters.get? name = some v) :
    p.condition.truth w bound = some true ↔ ∀ k ∈ p.constraints, k.Holds w.compare n := by
  rcases hp.condition with ⟨first, rest, hparts, hcondition⟩
  rw [hcondition, Condition.truth_conjunction, ← hparts, List.forall_mem_map]
  rw [hp.parameters_eq hkeys] at hparameters
  exact truth_parts hp.compiled hn hparameters

end Predicate

end Costar
