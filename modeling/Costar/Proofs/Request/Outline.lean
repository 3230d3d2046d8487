import Costar.Proofs.Request.Assembly

/-!
# What the text of a request depends on

The text of a request and the names of its parameters are made from its outline: the categories,
declared fields and operators that the filters ask for, in their order.  The ids and the operands
have no part in them, and of a filter key nothing but the field and the operator that it is read as.

Main results:

- Definition `Selection.outline`: what the keys of all filters are read as.
- Theorem `PathRequest.outline_eq`: the outline of a request is read from the keys alone.
- Theorem `PathRequest.text_assemble`: the text of a request is a function of its outline.
- Theorem `PathRequest.text_depends_on_outline`: requests that are asked for the same have the same
  text and the same parameters.
-/

namespace Costar

open Cypher

/-- Fields of categories and what is asked of them. -/
abbrev Outline := List (Category × FilterKey)

/-! ## Constraints without operands -/

namespace Constraint

variable {c : Category} {k : Constraint}

/-- The field and the operator of a constraint. -/
def filterKey (k : Constraint) : FilterKey :=
  ⟨k.field, k.operator⟩

/-- The constraint for a field and an operator, without operands. -/
def ofFilterKey (c : Category) (a : FilterKey) : Constraint :=
  ⟨c.name, a.field, a.operator, []⟩

/-- The condition of a constraint does not depend on its operands. -/
theorem condition_ofFilterKey (hk : k.Declared c) (node : String) :
    (ofFilterKey c k.filterKey).condition node = k.condition node := by
  rw [ofFilterKey, ← hk.category]
  rfl

/-- The names of a constraint's parameters do not depend on its operands. -/
theorem names_ofFilterKey (hk : k.Declared c) :
    (ofFilterKey c k.filterKey).names = k.names := by
  rw [ofFilterKey, ← hk.category]
  rfl

theorem filterKey_of_parse {key : Text} {v : Value} (h : parse c key v = .ok k) :
    FilterKey.parse c key = .ok k.filterKey := by
  rcases Failure.bind_eq_ok.mp h with ⟨a, hkey, h⟩
  rw [hkey]
  split at h
  · cases h
  · split at h
    · rcases Failure.bind_eq_ok.mp h with ⟨operand, -, h⟩
      cases h
      rfl
    · split at h
      · rcases Failure.bind_eq_ok.mp h with ⟨low, -, h⟩
        rcases Failure.bind_eq_ok.mp h with ⟨high, -, h⟩
        cases h
        rfl
      · cases h

end Constraint

/-! ## Outlines of filters -/

namespace Selection

/-- The keys of a category's filter. -/
def keysOf (s : Selection) (c : Category) : List Text :=
  match Predicate.entries (s.get c) with
  | .ok entries => Record.keys entries
  | .error _ => []

/-- The keys of all filters, with their categories. -/
def asked (s : Selection) : List (Category × Text) :=
  Category.all.flatMap fun c => (s.keysOf c).map (c, ·)

/-- What the keys of all filters are read as. -/
def outline (s : Selection) : Except Failure Outline :=
  s.asked.mapM fun e => (FilterKey.parse e.1 e.2).map (e.1, ·)

theorem parse_keysOf {s : Selection} {c : Category} {ks : List Constraint}
    (h : s.constraintsOf c = .ok ks) :
    List.Forall₂ (fun key (k : Constraint) => FilterKey.parse c key = .ok k.filterKey)
      (s.keysOf c) ks := by
  rcases Failure.bind_eq_ok.mp h with ⟨entries, hentries, hks⟩
  have hkeys : s.keysOf c = entries.map (·.1) := by
    unfold keysOf
    rw [hentries]
    rfl
  rw [hkeys, List.forall₂_map_left_iff]
  exact (Failure.mapM_eq_ok.mp hks).imp fun _ _ => Constraint.filterKey_of_parse

end Selection

namespace Outline

/-- The constraints on a category that an outline stands for, without operands. -/
def constraints (o : Outline) (c : Category) : List Constraint :=
  (o.filter (·.1 = c)).map fun a => Constraint.ofFilterKey a.1 a.2

/-- The text of the requests with an outline. -/
def text (node : String) (o : Outline) : String :=
  (PathRequest.assemble node 0 0 o.constraints).text

end Outline

/-! ## Outlines of requests -/

namespace PathRequest

variable {node : String} {s : Selection} {constraints : Category → List Constraint}
variable {first second : Int}

/-- The outline of a request. -/
def outline (r : PathRequest) : Outline :=
  r.predicates.flatMap fun e => e.2.constraints.map fun k => (e.1, k.filterKey)

theorem outline_assemble (node : String) (first second : Int)
    (constraints : Category → List Constraint) :
    (assemble node first second constraints).outline =
      Category.all.flatMap fun c => (constraints c).map fun k => (c, k.filterKey) := by
  refine flatMap_predicatesOf ?_ ?_
  · intro c p hp
    rw [Predicate.constraints_of_assemble hp]
  · intro c hnone
    rw [hnone]
    rfl

/-- The outline of a request is what the keys of its filters are read as. -/
theorem outline_eq (node : String) (first second : Int)
    (h : ∀ c, s.constraintsOf c = .ok (constraints c)) :
    s.outline = .ok (assemble node first second constraints).outline := by
  rw [outline_assemble]
  refine Failure.mapM_eq_ok.mpr (List.rel_flatMap (List.forall₂_same.mpr fun c _ => rfl) ?_)
  rintro c _ rfl
  rw [List.forall₂_map_left_iff, List.forall₂_map_right_iff]
  refine (Selection.parse_keysOf (h c)).imp ?_
  intro key k hkey
  rw [hkey]
  rfl

/-- Every field in the outline of a request is declared. -/
theorem declared_of_mem_outline (h : ∀ c, s.constraintsOf c = .ok (constraints c))
    {a : Category × FilterKey} (ha : a ∈ (assemble node first second constraints).outline) :
    ∃ type, (a.2.field, type) ∈ a.1.fields := by
  rw [outline_assemble, List.mem_flatMap] at ha
  rcases ha with ⟨c, -, ha⟩
  rcases List.mem_map.mp ha with ⟨k, hk, rfl⟩
  exact (declared_of_constraintsOf (h c) k hk).field

/-! ## Text and parameters -/

theorem constraints_outline (node : String) (first second : Int)
    (constraints : Category → List Constraint) (c : Category) :
    (assemble node first second constraints).outline.constraints c =
      (constraints c).map fun k => Constraint.ofFilterKey c k.filterKey := by
  have hfilter : ∀ d : Category,
      (((constraints d).map fun k => (d, k.filterKey)).filter fun a => decide (a.1 = c)) =
        if d = c then (constraints d).map fun k => (d, k.filterKey) else [] := by
    intro d
    by_cases hd : d = c <;> simp [List.filter_map, Function.comp_def, hd]
  rw [outline_assemble, Outline.constraints, List.filter_flatMap]
  simp only [hfilter]
  cases c <;> simp [Category.all]

theorem conditionOn_congr {c : Category} {p q : Predicate} (h : p.condition = q.condition) :
    conditionOn c p = conditionOn c q := by
  unfold conditionOn
  rw [h]

/-- The condition on a category does not depend on the operands. -/
theorem map_conditionOn_assemble {c : Category} {ks : List Constraint}
    (hdeclared : ∀ k ∈ ks, k.Declared c) :
    (Predicate.assemble node ks).map (conditionOn c) =
      (Predicate.assemble node (ks.map fun k => Constraint.ofFilterKey c k.filterKey)).map
        (conditionOn c) := by
  cases ks with
  | nil => rfl
  | cons k rest =>
      rw [List.forall_mem_cons] at hdeclared
      have hrest : rest.map (Constraint.condition node) = (rest.map fun k =>
          Constraint.ofFilterKey c k.filterKey).map (Constraint.condition node) := by
        rw [List.map_map]
        exact List.map_congr_left fun k hk =>
          (Constraint.condition_ofFilterKey (hdeclared.2 k hk) node).symm
      refine congrArg some (conditionOn_congr ?_)
      change Condition.conjunction _ _ = Condition.conjunction _ _
      rw [hrest, Constraint.condition_ofFilterKey hdeclared.1]

theorem conditions_eq (node : String) (first second : Int)
    (constraints : Category → List Constraint) :
    (assemble node first second constraints).conditions = Category.all.filterMap fun c =>
      (Predicate.assemble node (constraints c)).map (conditionOn c) := by
  simp only [assemble, predicatesOf, List.map_filterMap, Option.map_map]
  rfl

/-- The text of a request is a function of its outline. -/
theorem text_assemble (hdeclared : ∀ c, ∀ k ∈ constraints c, k.Declared c) :
    (assemble node first second constraints).text =
      Outline.text node (assemble node first second constraints).outline := by
  unfold Outline.text text
  rw [conditions_eq, conditions_eq]
  simp only [constraints_outline, map_conditionOn_assemble (hdeclared _)]

theorem mem_keys_of_assemble {c : Category} {ks : List Constraint} {p : Predicate}
    (hp : Predicate.assemble node ks = some p) (hdeclared : ∀ k ∈ ks, k.Declared c)
    {name : String} : name ∈ Record.keys p.parameters ↔ ∃ k ∈ ks, name ∈ k.names := by
  rw [Predicate.parameters_of_assemble hp, Record.mem_keys_merge,
    Constraint.keys_flatMap_bindings hdeclared, List.mem_flatMap]
  exact or_iff_right List.not_mem_nil

/-- The parameters of a request are the ids and those of its outline. -/
theorem mem_keys_assemble (hdeclared : ∀ c, ∀ k ∈ constraints c, k.Declared c) {name : String} :
    name ∈ Record.keys (assemble node first second constraints).parameters ↔
      name ∈ [firstParameter, secondParameter] ∨
        ∃ a ∈ (assemble node first second constraints).outline,
          name ∈ (Constraint.ofFilterKey a.1 a.2).names := by
  have hmerge : (assemble node first second constraints).parameters =
      Record.merge (ids first second)
        ((predicatesOf node constraints).flatMap (·.2.parameters)) := by
    rw [Record.merge, List.foldl_flatMap]
    rfl
  have hkeys : Record.keys ((predicatesOf node constraints).flatMap (·.2.parameters)) =
      (predicatesOf node constraints).flatMap fun e => Record.keys e.2.parameters := by
    rw [Record.keys, List.map_flatMap]
    rfl
  rw [hmerge, Record.mem_keys_merge, hkeys, outline_assemble, List.mem_flatMap]
  refine or_congr Iff.rfl ?_
  constructor
  · rintro ⟨⟨c, p⟩, hmem, hname⟩
    have hp := mem_predicatesOf.mp hmem
    rcases (mem_keys_of_assemble hp (hdeclared c)).mp hname with ⟨k, hk, hname⟩
    refine ⟨(c, k.filterKey), ?_, ?_⟩
    · exact List.mem_flatMap.mpr ⟨c, c.mem_all, List.mem_map_of_mem hk⟩
    · rwa [Constraint.names_ofFilterKey (hdeclared c k hk)]
  · rintro ⟨a, ha, hname⟩
    rcases List.mem_flatMap.mp ha with ⟨c, -, ha⟩
    rcases List.mem_map.mp ha with ⟨k, hk, rfl⟩
    rw [Constraint.names_ofFilterKey (hdeclared c k hk)] at hname
    obtain ⟨p, hp⟩ := Predicate.exists_assemble_of_mem hk node
    exact ⟨(c, p), mem_predicatesOf.mpr hp,
      (mem_keys_of_assemble hp (hdeclared c)).mpr ⟨k, hk, hname⟩⟩

/-- The text of a request that is built is made from its outline, which is read from the keys of the
filters alone and names declared fields only.  So two requests whose filters ask for the same keys
have the same text and the same parameters, whatever their ids and operands are. -/
theorem text_depends_on_outline (node : String) :
    (∀ first second filters request, build node first second filters = .ok request →
      ∃ s, filters.selection = .ok s ∧ s.outline = .ok request.outline ∧
        (∀ a ∈ request.outline, ∃ type, (a.2.field, type) ∈ a.1.fields) ∧
        request.text = Outline.text node request.outline) ∧
    ∀ first second filters request first' second' filters' request' s s',
      build node first second filters = .ok request →
      build node first' second' filters' = .ok request' →
      filters.selection = .ok s → filters'.selection = .ok s' → s.asked = s'.asked →
      request.text = request'.text ∧
        ∀ name, name ∈ Record.keys request.parameters ↔ name ∈ Record.keys request'.parameters := by
  constructor
  · intro first second filters request h
    rcases build_eq_ok_iff.mp h with ⟨m, n, s, constraints, -, -, hs, hconstraints, rfl⟩
    exact ⟨s, hs, outline_eq node m n hconstraints,
      fun a => declared_of_mem_outline hconstraints,
      text_assemble fun c => declared_of_constraintsOf (hconstraints c)⟩
  · intro first second filters request first' second' filters' request' s s' h h' hs hs' hasked
    rcases build_eq_ok_iff.mp h with ⟨m, n, t, constraints, -, -, ht, hconstraints, rfl⟩
    rcases build_eq_ok_iff.mp h' with ⟨m', n', t', constraints', -, -, ht', hconstraints', rfl⟩
    cases hs.symm.trans ht
    cases hs'.symm.trans ht'
    have houtline : (assemble node m n constraints).outline =
        (assemble node m' n' constraints').outline := by
      have heq : s.outline = s'.outline := by
        rw [Selection.outline, Selection.outline, hasked]
      rw [outline_eq node m n hconstraints, outline_eq node m' n' hconstraints'] at heq
      injection heq
    have hdeclared := fun c => declared_of_constraintsOf (hconstraints c)
    have hdeclared' := fun c => declared_of_constraintsOf (hconstraints' c)
    refine ⟨?_, fun name => ?_⟩
    · rw [text_assemble hdeclared, text_assemble hdeclared', houtline]
    · rw [mem_keys_assemble hdeclared, mem_keys_assemble hdeclared', houtline]

/-- Filters for movies of a title and from a range of years. -/
def titleFilters (title : String) (firstYear lastYear : String) : Filters :=
  .given (.map [("movie", .map [("title", .text title),
    ("release_date_IN", .list [.text firstYear, .text lastYear])])])

/-- A title that looks like a part of a query does not change the text. -/
theorem text_of_titleFilters :
    ∃ request request',
      build nodeVariable (.int 1) (.int 2) (titleFilters "Heat" "1990-01-01" "1999-12-31") =
        .ok request ∧
      build nodeVariable (.int 7) (.int (-8))
        (titleFilters "x' OR true) RETURN p //" "2021-05-01" "1985-02-03") = .ok request' ∧
      request.text = Outline.text nodeVariable request.outline ∧
      request.text = request'.text ∧
      ∀ name, name ∈ Record.keys request.parameters ↔ name ∈ Record.keys request'.parameters := by
  obtain ⟨request, hrequest⟩ : ∃ request, build nodeVariable (.int 1) (.int 2)
      (titleFilters "Heat" "1990-01-01" "1999-12-31") = .ok request := ⟨_, rfl⟩
  obtain ⟨request', hrequest'⟩ : ∃ request', build nodeVariable (.int 7) (.int (-8))
      (titleFilters "x' OR true) RETURN p //" "2021-05-01" "1985-02-03") = .ok request' := ⟨_, rfl⟩
  obtain ⟨hsingle, hpair⟩ := text_depends_on_outline nodeVariable
  obtain ⟨-, -, -, -, htext⟩ := hsingle _ _ _ _ hrequest
  exact ⟨request, request', hrequest, hrequest', htext,
    hpair _ _ _ _ _ _ _ _ _ _ hrequest hrequest' rfl rfl rfl⟩

end PathRequest

end Costar
