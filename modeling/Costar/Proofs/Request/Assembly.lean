import Costar.Proofs.Filter.Compilation
import Costar.Proofs.Request.Build

/-!
# Requests in assembled form

A request can be built exactly when its ids are whole numbers and the filter of every category can
be read, and then it is put together from the ids and the constraints, without a step that may fail.
What is known of a request can so be read off its constraints.

Main results:

- Definition `PathRequest.assemble`: the request that ids and constraints make.
- Theorem `PathRequest.build_eq_ok_iff`: when a request can be built, and that it is this one.
- Theorem `PathRequest.parameters_assemble`: its parameters are the ids and those of the
  constraints, one behind another.
- Theorem `PathRequest.keeps_assemble`: it keeps the constraints that it is assembled from.
-/

namespace Costar

open Cypher

namespace PathRequest

/-! ## Assembled requests -/

/-- The parameters that hold the two people. -/
def ids (first second : Int) : Record String :=
  [(firstParameter, .int first), (secondParameter, .int second)]

/-- The predicates that the constraints of all categories make. -/
def predicatesOf (node : String) (constraints : Category → List Constraint) :
    List (Category × Predicate) :=
  Category.all.filterMap fun c => (Predicate.assemble node (constraints c)).map (c, ·)

/-- The request that two ids and the constraints of all categories make. -/
def assemble (node : String) (first second : Int) (constraints : Category → List Constraint) :
    PathRequest where
  first := first
  second := second
  conditions := (predicatesOf node constraints).map fun e => conditionOn e.1 e.2
  parameters := (predicatesOf node constraints).foldl
    (fun acc e => Record.merge acc e.2.parameters) (ids first second)
  predicates := predicatesOf node constraints

theorem mem_predicatesOf {node : String} {constraints : Category → List Constraint}
    {c : Category} {p : Predicate} :
    (c, p) ∈ predicatesOf node constraints ↔ Predicate.assemble node (constraints c) = some p := by
  unfold predicatesOf
  rw [List.mem_filterMap]
  constructor
  · rintro ⟨d, -, hd⟩
    rcases Option.map_eq_some_iff.mp hd with ⟨q, hq, heq⟩
    cases heq
    exact hq
  · intro hp
    exact ⟨c, c.mem_all, by rw [hp]; rfl⟩

/-- What is collected from the predicates is collected from the constraints of all categories. -/
theorem flatMap_predicatesOf {α : Type} {node : String} {constraints : Category → List Constraint}
    {f : Category × Predicate → List α} {g : Category → List α}
    (hsome : ∀ c p, Predicate.assemble node (constraints c) = some p → f (c, p) = g c)
    (hnone : ∀ c, constraints c = [] → g c = []) :
    (predicatesOf node constraints).flatMap f = Category.all.flatMap g := by
  unfold predicatesOf
  rw [List.filterMap_eq_flatMap_toList, List.flatMap_assoc]
  refine List.flatMap_congr ?_
  intro c _
  cases hp : Predicate.assemble node (constraints c) with
  | none => rw [hnone c (Predicate.assemble_eq_none.mp hp)]; rfl
  | some p => rw [← hsome c p hp]; exact List.flatMap_singleton ..

/-! ## Building is assembling -/

variable {node : String} {s : Selection} {constraints : Category → List Constraint}

theorem declared_of_constraintsOf {c : Category} {ks : List Constraint}
    (h : s.constraintsOf c = .ok ks) : ∀ k ∈ ks, k.Declared c := by
  rcases Failure.bind_eq_ok.mp h with ⟨entries, -, hks⟩
  exact (Predicate.constraintsOf_eq_ok hks).1

theorem keys_of_constraintsOf (hkeys : s.KeysDistinct) {c : Category} {ks : List Constraint}
    (h : s.constraintsOf c = .ok ks) : (ks.map Constraint.key).Nodup := by
  rcases Failure.bind_eq_ok.mp h with ⟨entries, hentries, hks⟩
  rw [(Predicate.constraintsOf_eq_ok hks).2]
  rcases Predicate.entries_eq_ok hentries with hget | ⟨rfl, -⟩
  · exact hkeys c entries hget
  · exact List.nodup_nil

theorem constraintsOf_of_not_given {c : Category} (h : (s.get c).isGiven = false) :
    s.constraintsOf c = .ok [] :=
  Failure.bind_eq_ok.mpr ⟨[], Predicate.entries_of_not_given h, rfl⟩

/-- The filter of a category is compiled once its constraints have been read. -/
theorem compile_get (node : String) (s : Selection) (c : Category) :
    Predicate.compile node c (s.get c) =
      (s.constraintsOf c).map (Predicate.assemble node) :=
  Predicate.compile_eq node c (s.get c)

theorem compileAll_eq (node : String) (h : ∀ c, s.constraintsOf c = .ok (constraints c)) :
    compileAll node s.given = .ok (predicatesOf node constraints) := by
  have hgiven : ∀ e ∈ s.given, (do
      let predicate ← Predicate.compile node e.1 e.2
      pure (predicate.map (e.1, ·)) : Except Failure (Option (Category × Predicate))) =
        .ok ((Predicate.assemble node (constraints e.1)).map (e.1, ·)) := by
    intro e he
    rw [(Selection.mem_given.mp he).1, compile_get, h]
    rfl
  unfold compileAll
  rw [Failure.mapM_eq_map hgiven]
  change Except.ok _ = Except.ok _
  rw [List.filterMap_map]
  unfold Selection.given predicatesOf
  rw [List.filterMap_filter, List.filterMap_map]
  refine congrArg _ (List.filterMap_congr ?_)
  intro c _
  -- Where nothing is given there are no constraints, hence no predicate.
  cases hc : (s.get c).isGiven with
  | true => simp [hc]
  | false =>
      have hnone : constraints c = [] := by
        have heq := (h c).symm.trans (constraintsOf_of_not_given hc)
        injection heq
      simp [hc, hnone, Predicate.assemble]

theorem exists_constraintsOf {predicates : List (Category × Predicate)}
    (h : compileAll node s.given = .ok predicates) :
    ∃ constraints : Category → List Constraint, ∀ c, s.constraintsOf c = .ok (constraints c) := by
  have hread : ∀ c, ∃ ks, s.constraintsOf c = .ok ks := by
    intro c
    cases hc : (s.get c).isGiven with
    | false => exact ⟨[], constraintsOf_of_not_given hc⟩
    | true =>
        rcases Failure.bind_eq_ok.mp h with ⟨compiled, hcompiled, -⟩
        have hmem : (c, s.get c) ∈ s.given := Selection.mem_given.mpr ⟨rfl, hc⟩
        rcases Failure.exists_of_mapM_eq_ok hcompiled hmem with ⟨found, -, hfound⟩
        rcases Failure.bind_eq_ok.mp hfound with ⟨predicate, hpredicate, -⟩
        rw [compile_get] at hpredicate
        cases hks : s.constraintsOf c with
        | ok ks => exact ⟨ks, rfl⟩
        | error f =>
            rw [hks] at hpredicate
            cases hpredicate
  choose constraints hconstraints using hread
  exact ⟨constraints, hconstraints⟩

theorem checkId_eq_ok {name : String} {v : Value} {n : Int} :
    checkId name v = .ok n ↔ v = .int n := by
  cases v <;> simp [checkId]

/-- A request can be built exactly when the ids are whole numbers and all filters can be read, and
then it is assembled from the ids and the constraints. -/
theorem build_eq_ok_iff {first second : Value} {filters : Filters} {request : PathRequest} :
    build node first second filters = .ok request ↔
      ∃ m n s constraints, first = .int m ∧ second = .int n ∧ filters.selection = .ok s ∧
        (∀ c, s.constraintsOf c = .ok (constraints c)) ∧
        request = assemble node m n constraints := by
  simp only [build, Failure.bind_eq_ok, checkId_eq_ok]
  constructor
  · rintro ⟨m, rfl, n, rfl, s, hs, predicates, hpredicates, hrequest⟩
    rcases exists_constraintsOf hpredicates with ⟨constraints, hconstraints⟩
    rw [compileAll_eq node hconstraints] at hpredicates
    cases hpredicates
    cases hrequest
    exact ⟨m, n, s, constraints, rfl, rfl, hs, hconstraints, rfl⟩
  · rintro ⟨m, n, s, constraints, rfl, rfl, hs, hconstraints, rfl⟩
    exact ⟨m, rfl, n, rfl, s, hs, _, compileAll_eq node hconstraints, rfl⟩

/-! ## Parameters -/

theorem flatMap_bindings {p : Predicate} {c : Category} {ks : List Constraint}
    (hp : Predicate.assemble node ks = some p) (hdeclared : ∀ k ∈ ks, k.Declared c)
    (hkeys : (ks.map Constraint.key).Nodup) :
    p.parameters = ks.flatMap Constraint.bindings := by
  rw [Predicate.parameters_of_assemble hp]
  refine Record.merge_of_nodup ?_
  rw [List.nil_append, Constraint.keys_flatMap_bindings hdeclared]
  exact Constraint.nodup_names hdeclared hkeys

/-- The parameters of an assembled request are the ids and those of the constraints, under distinct
names. -/
theorem parameters_assemble (node : String) (first second : Int) (hkeys : s.KeysDistinct)
    (h : ∀ c, s.constraintsOf c = .ok (constraints c)) :
    (assemble node first second constraints).parameters =
        ids first second ++
          (Category.all.flatMap fun c => (constraints c).flatMap Constraint.bindings) ∧
      (Record.keys (assemble node first second constraints).parameters).Nodup := by
  have hcompile := compileAll_eq node h
  obtain ⟨hcategories, hall⟩ := compiles_of_compileAll hkeys hcompile
  have hnodup : ((predicatesOf node constraints).map (·.1)).Nodup := by
    rw [hcategories]
    exact s.nodup_given
  have hparameters := parameters_eq first second hnodup hall
  have hdistinct := nodup_keys first second hnodup hall
  rw [← hparameters] at hdistinct
  refine ⟨?_, hdistinct⟩
  refine hparameters.trans (congrArg _ (flatMap_predicatesOf ?_ ?_))
  · intro c p hp
    exact flatMap_bindings hp (declared_of_constraintsOf (h c)) (keys_of_constraintsOf hkeys (h c))
  · intro c hnone
    rw [hnone]
    rfl

/-! ## What a request keeps -/

/-- Whether a request keeps a constraint on a category: it is among those of the category's
predicate, and each of its parameters is bound to what its operand is sent as, a tuple as a list. -/
structure Keeps (r : PathRequest) (c : Category) (k : Constraint) : Prop where
  constraint : ∃ p, (c, p) ∈ r.predicates ∧ k ∈ p.constraints
  bound : List.Forall₂
    (fun name operand => ∃ v, r.parameters.get? name = some v ∧ Constraint.SentAs operand v)
    k.names k.operands

/-- An assembled request keeps the constraints that it is assembled from. -/
theorem keeps_assemble (node : String) (first second : Int) (hkeys : s.KeysDistinct)
    (h : ∀ c, s.constraintsOf c = .ok (constraints c)) {c : Category} {k : Constraint} :
    (assemble node first second constraints).Keeps c k ↔ k ∈ constraints c := by
  rcases parameters_assemble node first second hkeys h with ⟨hparameters, hnodup⟩
  constructor
  · rintro ⟨⟨p, hp, hk⟩, -⟩
    rwa [Predicate.constraints_of_assemble (mem_predicatesOf.mp hp)] at hk
  · intro hk
    refine ⟨?_, ?_⟩
    · obtain ⟨p, hp⟩ := Predicate.exists_assemble_of_mem hk node
      refine ⟨p, mem_predicatesOf.mpr hp, ?_⟩
      rwa [Predicate.constraints_of_assemble hp]
    · refine Constraint.forall₂_names (declared_of_constraintsOf (h c) k hk) ?_
      intro b hb
      refine Record.get?_of_mem hnodup ?_
      rw [hparameters]
      refine List.mem_append_right _ (List.mem_flatMap.mpr ⟨c, c.mem_all, ?_⟩)
      exact List.mem_flatMap.mpr ⟨k, hk, hb⟩

end PathRequest

end Costar
