import Costar.Proofs.Request.Closed

/-!
# The variables in the conditions of a request

A condition of a request binds a variable to the nodes of the path that have the label of a category,
and asks something of their properties.  The constraints are written over the variable that the
predicates are compiled for, but the variable that is bound is always the same, and so is the one
in the exception for the two people.  A request is well scoped only where these are one variable.

Main results:

- Definition `Condition.accesses`: the properties in a condition and the variables bound around them.
- Definition `Condition.WellScoped`: each property is one of the variable that is bound around it.
- Theorem `PathRequest.mem_accesses_conditionOn`: the properties in the condition of a category.
- Theorem `PathRequest.wellScoped_iff`: which requests have well-scoped conditions.
- Theorem `PathRequest.other_variable_unbound`: a request in which a variable is not bound.
-/

namespace Costar

open Cypher

/-! ## Properties in conditions -/

namespace Cypher.Condition

/-- The properties that a condition is about, from left to right, each with the variable that the
innermost condition on every node around it binds, if there is one around it. -/
def accesses (bound : Option String) : Condition → List (Option String × Property)
  | .compare property _ _ => [(bound, property)]
  | .memberOf property _ => [(bound, property)]
  | .group body => body.accesses bound
  | .both left right => left.accesses bound ++ right.accesses bound
  | .either left right => left.accesses bound ++ right.accesses bound
  | .everyNode node _ _ _ body => body.accesses (some node)

/-- Whether every property that a condition is about is one of the variable that is bound around
it. -/
def WellScoped (c : Condition) : Prop :=
  ∀ a ∈ c.accesses none, a.1 = some a.2.node

/-- The properties in a conjunction are those in its parts. -/
theorem accesses_conjunction (bound : Option String) (first : Condition) (rest : List Condition) :
    (conjunction first rest).accesses bound = (first :: rest).flatMap (accesses bound) := by
  induction rest generalizing first with
  | nil => simp [conjunction]
  | cons second rest ih =>
      have hstep : conjunction first (second :: rest) = conjunction (both first second) rest := rfl
      rw [hstep, ih]
      simp [accesses]

end Cypher.Condition

/-- A constraint is about its field, which a range names twice. -/
theorem Constraint.mem_accesses_condition {node : String} {k : Constraint} {bound : Option String}
    {a : Option String × Property} :
    a ∈ (k.condition node).accesses bound ↔ a = (bound, ⟨node, k.field⟩) := by
  unfold condition
  cases k.operator <;> simp [Condition.accesses]

/-- The predicate that constraints make is about their fields. -/
theorem Predicate.mem_accesses_of_assemble {node : String} {ks : List Constraint} {p : Predicate}
    (hp : assemble node ks = some p) {bound : Option String} {a : Option String × Property} :
    a ∈ p.condition.accesses bound ↔ ∃ k ∈ ks, a = (bound, ⟨node, k.field⟩) := by
  cases ks with
  | nil => cases hp
  | cons first rest =>
      cases hp
      have hmap : first.condition node :: rest.map (·.condition node) =
          (first :: rest).map (·.condition node) := rfl
      simp only [Condition.accesses_conjunction, hmap, List.flatMap_map, List.mem_flatMap,
        Constraint.mem_accesses_condition]

namespace PathRequest

variable {node : String} {ks : List Constraint} {p : Predicate}

/-- The condition of a category is about the fields of its constraints, over the variable that they
are compiled for, and that of people also about their ids, over the variable that it binds. -/
theorem mem_accesses_conditionOn (hp : Predicate.assemble node ks = some p) {c : Category}
    {a : Option String × Property} :
    a ∈ (conditionOn c p).accesses none ↔
      (∃ k ∈ ks, a = (some nodeVariable, ⟨node, k.field⟩)) ∨
        c = .person ∧ a = (some nodeVariable, ⟨nodeVariable, personId⟩) := by
  have hcondition := @Predicate.mem_accesses_of_assemble node ks p hp (some nodeVariable) a
  cases c with
  | person => simp [conditionOn, Condition.accesses, hcondition]
  | movie => simp [conditionOn, Condition.accesses, hcondition]
  | episode => simp [conditionOn, Condition.accesses, hcondition]

/-- The condition of a category is well scoped exactly when its constraints are compiled for the
variable that it binds. -/
theorem wellScoped_conditionOn (hp : Predicate.assemble node ks = some p) (c : Category) :
    (conditionOn c p).WellScoped ↔ node = nodeVariable := by
  constructor
  · intro h
    cases ks with
    | nil => cases hp
    | cons k rest =>
        have haccess : (some nodeVariable, ⟨node, k.field⟩) ∈ (conditionOn c p).accesses none :=
          (mem_accesses_conditionOn hp).mpr (Or.inl ⟨k, List.mem_cons_self, rfl⟩)
        exact (Option.some.inj (h _ haccess)).symm
  · rintro rfl a ha
    rcases (mem_accesses_conditionOn hp).mp ha with ⟨k, -, rfl⟩ | ⟨-, rfl⟩ <;> rfl

/-! ## Conditions of requests -/

/-- Whether all conditions of a request are well scoped. -/
def WellScoped (r : PathRequest) : Prop :=
  ∀ condition ∈ r.conditions, condition.WellScoped

theorem wellScoped_assemble {first second : Int} {constraints : Category → List Constraint} :
    (assemble node first second constraints).WellScoped ↔
      node = nodeVariable ∨ (assemble node first second constraints).conditions = [] := by
  have hall : (assemble node first second constraints).WellScoped ↔
      ∀ q ∈ predicatesOf node constraints, node = nodeVariable := by
    refine List.forall_mem_map.trans (forall₂_congr ?_)
    rintro ⟨c, p⟩ hq
    exact wellScoped_conditionOn (mem_predicatesOf.mp hq) c
  have hempty : (assemble node first second constraints).conditions = [] ↔
      predicatesOf node constraints = [] := List.map_eq_nil_iff
  rw [hall, hempty]
  cases predicatesOf node constraints with
  | nil => simp
  | cons q rest =>
      constructor
      · intro hnode
        exact Or.inl (hnode q List.mem_cons_self)
      · rintro (hnode | hnil) _ _
        · exact hnode
        · cases hnil

/-- The conditions of a request bind one variable, whatever variable the predicates are compiled for.
So they are well scoped exactly when the predicates are compiled for this variable or there are no
conditions.  They are what is read in the text of the request if that variable is a name. -/
theorem wellScoped_iff {first second : Value} {filters : Filters} {request : PathRequest}
    (h : build node first second filters = .ok request) :
    (request.WellScoped ↔ node = nodeVariable ∨ request.conditions = []) ∧
      (∀ condition ∈ request.conditions, ∀ a ∈ condition.accesses none,
        a.1 = some nodeVariable ∧ (a.2.node = node ∨ a.2 = ⟨nodeVariable, personId⟩)) ∧
      (IsName node → readClause request.text = some (joinedConditions request.conditions)) := by
  rcases build_eq_ok_iff.mp h with ⟨m, n, s, constraints, -, -, -, hconstraints, rfl⟩
  refine ⟨wellScoped_assemble, ?_, fun hnode => readClause_text (legible_assemble hnode hconstraints)⟩
  intro condition hcondition a ha
  rcases List.mem_map.mp hcondition with ⟨⟨c, p⟩, hq, rfl⟩
  rcases (mem_accesses_conditionOn (mem_predicatesOf.mp hq)).mp ha with ⟨k, -, rfl⟩ | ⟨-, rfl⟩
  · exact ⟨rfl, Or.inl rfl⟩
  · exact ⟨rfl, Or.inr rfl⟩

/-- Filters for people and for the length of movies. -/
def annaFilters : Filters :=
  .given (.map [("person", .map [("name", .text "Anna")]),
    ("movie", .map [("runtime_IN", .list [.int 90, .int 120])])])

/-- A request with `annaFilters` is well scoped when the predicates are compiled for the variable
that its conditions bind, and its clause can be read. -/
theorem wellScoped_annaFilters :
    ∃ request, build nodeVariable (.int 1) (.int 2) annaFilters = .ok request ∧
      request.conditions.length = 2 ∧ IsName nodeVariable ∧ request.WellScoped ∧
      readClause request.text = some (joinedConditions request.conditions) := by
  obtain ⟨request, hrequest, hlength⟩ : ∃ request,
      build nodeVariable (.int 1) (.int 2) annaFilters = .ok request ∧
        request.conditions.length = 2 := ⟨_, rfl, rfl⟩
  have hnode : IsName nodeVariable := by decide
  rcases wellScoped_iff hrequest with ⟨hscoped, -, hread⟩
  exact ⟨request, hrequest, hlength, hnode, hscoped.mpr (Or.inl rfl), hread hnode⟩

/-- With the predicates compiled for another variable, the condition on people is about the name of
a node that nothing binds. -/
theorem other_variable_unbound :
    IsName "m" ∧ ∃ request,
      build "m" (.int 1) (.int 2) (.given (.map [("person", .map [("name", .text "Anna")])])) =
        .ok request ∧
      request.conditions.map (·.text) =
        ["all(n IN [x IN nodes(p) WHERE x:Person] WHERE (m.name = $person_name_eq) OR " ++
          "n.person_id IN [$first_person_id, $second_person_id])"] ∧
      (∃ condition ∈ request.conditions,
        (some "n", ⟨"m", "name"⟩) ∈ condition.accesses none) ∧
      ¬ request.WellScoped := by
  obtain ⟨request, hrequest, htext, haccesses⟩ : ∃ request,
      build "m" (.int 1) (.int 2) (.given (.map [("person", .map [("name", .text "Anna")])])) =
        .ok request ∧
      request.conditions.map (·.text) =
        ["all(n IN [x IN nodes(p) WHERE x:Person] WHERE (m.name = $person_name_eq) OR " ++
          "n.person_id IN [$first_person_id, $second_person_id])"] ∧
      (∃ condition ∈ request.conditions,
        (some "n", ⟨"m", "name"⟩) ∈ condition.accesses none) :=
    ⟨_, rfl, by decide, _, List.mem_cons_self, List.mem_cons_self⟩
  refine ⟨by decide, request, hrequest, htext, haccesses, ?_⟩
  intro hscoped
  rcases haccesses with ⟨condition, hcondition, haccess⟩
  exact absurd (hscoped condition hcondition _ haccess) (by decide)

end PathRequest

end Costar
