import Costar.Proofs.Request.Clause

/-!
# Which paths a request admits

The clause of a request is true of a path exactly when every node on it passes the filters: a node
with the label of a category satisfies all constraints of the category, except that the two people
of the request need not satisfy those on people.

Main results:

- Definition `PathRequest.Admits`: what it is for a node to pass the filters of a request.
- Theorem `PathRequest.truth_conditionOn`: what the condition of a single category says.
- Theorem `PathRequest.clause_true_iff`: the clause that is read in the text of a request is true of
  the paths whose nodes all pass, and there is none exactly when nothing is filtered.
-/

namespace Costar

open Cypher

namespace PathRequest

/-- Whether a node is one of the two people of a request. -/
def Excepted (compare : Comparison → Value → Value → Truth) (first second : Int)
    (n : Node) : Prop :=
  compare .eq (Record.getOrNull n.properties personId) (.int first) = some true ∨
    compare .eq (Record.getOrNull n.properties personId) (.int second) = some true

/-- Whether a node passes the filters of a request: that of each category that it has the label of,
where the two people of the request are excepted from that of people. -/
structure Admits (compare : Comparison → Value → Value → Truth) (first second : Int)
    (constraints : Category → List Constraint) (n : Node) : Prop where
  movie : Label.movie ∈ n.labels → ∀ k ∈ constraints .movie, k.Holds compare n
  episode : Label.episode ∈ n.labels → ∀ k ∈ constraints .episode, k.Holds compare n
  person : Label.person ∈ n.labels →
    (∀ k ∈ constraints .person, k.Holds compare n) ∨ Excepted compare first second n

theorem admits_iff {compare : Comparison → Value → Value → Truth} {first second : Int}
    {constraints : Category → List Constraint} {n : Node} :
    Admits compare first second constraints n ↔
      ∀ c : Category, c.label ∈ n.labels →
        (∀ k ∈ constraints c, k.Holds compare n) ∨
          c = .person ∧ Excepted compare first second n := by
  constructor
  · intro h c hc
    cases c with
    | person =>
        rcases h.person hc with hall | hexcepted
        · exact Or.inl hall
        · exact Or.inr ⟨rfl, hexcepted⟩
    | movie => exact Or.inl (h.movie hc)
    | episode => exact Or.inl (h.episode hc)
  · intro h
    refine ⟨?_, ?_, ?_⟩
    · intro hlabel
      rcases h .movie hlabel with hall | ⟨hcategory, -⟩
      · exact hall
      · cases hcategory
    · intro hlabel
      rcases h .episode hlabel with hall | ⟨hcategory, -⟩
      · exact hall
      · cases hcategory
    · intro hlabel
      rcases h .person hlabel with hall | ⟨-, hexcepted⟩
      · exact Or.inl hall
      · exact Or.inr hexcepted

/-! ## The condition of a category -/

variable {s : Selection} {q : Category × Predicate} {w : Situation} {first second : Int}

theorem truth_excepted {bound : List (String × Node)} {n : Node}
    (hn : bound.lookup nodeVariable = some n)
    (hfirst : w.parameters.get? firstParameter = some (.int first))
    (hsecond : w.parameters.get? secondParameter = some (.int second)) :
    (Condition.memberOf ⟨nodeVariable, personId⟩ [firstParameter, secondParameter]).truth w bound =
        some true ↔ Excepted w.compare first second n := by
  rw [Condition.truth_memberOf]
  simp only [List.mem_cons, List.not_mem_nil, or_false, exists_eq_or_imp, exists_eq_left]
  rw [Condition.truth_compare hn hfirst, Condition.truth_compare hn hsecond]
  rfl

/-- What the condition of a single category says. -/
theorem truth_conditionOn (hq : Compiles nodeVariable s q) (hpath : w.path = pathVariable)
    (hfirst : w.parameters.get? firstParameter = some (.int first))
    (hsecond : w.parameters.get? secondParameter = some (.int second))
    (hparameters : ∀ name v, (name, v) ∈ q.2.parameters → w.parameters.get? name = some v) :
    (conditionOn q.1 q.2).truth w [] = some true ↔
      ∀ n ∈ w.nodes, q.1.label ∈ n.labels →
        (∀ k ∈ q.2.constraints, k.Holds w.compare n) ∨
          q.1 = .person ∧ Excepted w.compare first second n := by
  rcases hq.made with ⟨parts, hmade⟩
  have hbody : ∀ n : Node, q.2.condition.truth w [(nodeVariable, n)] = some true ↔
      ∀ k ∈ q.2.constraints, k.Holds w.compare n :=
    fun n => hmade.truth hq.nodup (by simp) hparameters
  have hnodes : ∀ (label : String) (body : Condition),
      (Condition.everyNode nodeVariable "x" pathVariable label body).truth w [] = some true ↔
        ∀ n ∈ w.nodes, label ∈ n.labels → body.truth w [(nodeVariable, n)] = some true :=
    fun _ _ => Condition.truth_everyNode hpath.symm
  rcases q with ⟨c, p⟩
  cases c with
  | person =>
      have hperson : ∀ n : Node, (Condition.either (.group p.condition)
          (.memberOf ⟨nodeVariable, personId⟩ [firstParameter, secondParameter])).truth w
            [(nodeVariable, n)] = some true ↔
          (∀ k ∈ p.constraints, k.Holds w.compare n) ∨ Excepted w.compare first second n := by
        intro n
        have hn : [(nodeVariable, n)].lookup nodeVariable = some n := by simp
        rw [Condition.truth_either, truth_excepted hn hfirst hsecond, ← hbody n]
        rfl
      refine (hnodes Label.person _).trans ?_
      simp only [hperson, true_and]
      rfl
  | movie =>
      refine (hnodes Label.movie p.condition).trans ?_
      simp only [hbody, reduceCtorEq, false_and, or_false]
      rfl
  | episode =>
      refine (hnodes Label.episode p.condition).trans ?_
      simp only [hbody, reduceCtorEq, false_and, or_false]
      rfl

/-- The condition of a category can be read back. -/
theorem legible_conditionOn (hq : Compiles nodeVariable s q) :
    (conditionOn q.1 q.2).Legible ∧ (conditionOn q.1 q.2).isAtom = true :=
  hq.legible (by decide)

/-! ## The clause of a request -/

theorem joinedConditions_eq_none {conditions : List Condition} :
    joinedConditions conditions = none ↔ conditions = [] := by
  cases conditions <;> simp [joinedConditions]

theorem truth_joinedConditions {conditions : List Condition} {bound : List (String × Node)} :
    (∀ c ∈ joinedConditions conditions, c.truth w bound = some true) ↔
      ∀ c ∈ conditions, c.truth w bound = some true := by
  cases conditions with
  | nil => simp [joinedConditions]
  | cons head rest =>
      rw [← Condition.truth_conjunction]
      simp [joinedConditions]

/-- Every category has constraints that are read from its filter: those of its predicate, or none
where nothing is filtered. -/
theorem exists_constraints {predicates : List (Category × Predicate)}
    (hcategories : predicates.map (·.1) = s.given.map (·.1))
    (hall : ∀ q ∈ predicates, Compiles nodeVariable s q) :
    ∃ constraints : Category → List Constraint,
      (∀ c, s.constraintsOf c = .ok (constraints c)) ∧
      (∀ q ∈ predicates, constraints q.1 = q.2.constraints) ∧
      ∀ c, (∀ q ∈ predicates, q.1 ≠ c) → constraints c = [] := by
  have hread : ∀ c, ∃ ks, s.constraintsOf c = .ok ks ∧
      ((∀ q ∈ predicates, q.1 ≠ c) → ks = []) := by
    intro c
    by_cases hgiven : (s.get c).isGiven = true
    · have hmem : c ∈ predicates.map (·.1) := by
        rw [hcategories]
        exact List.mem_map_of_mem (Selection.mem_given.mpr ⟨rfl, hgiven⟩)
      rcases List.mem_map.mp hmem with ⟨q, hq, rfl⟩
      exact ⟨q.2.constraints, (hall q hq).constraints, fun hnone => absurd rfl (hnone q hq)⟩
    · have hentries := Predicate.entries_of_not_given (by simpa using hgiven)
      exact ⟨[], Failure.bind_eq_ok.mpr ⟨[], hentries, rfl⟩, fun _ => rfl⟩
  choose constraints hconstraints hnone using hread
  refine ⟨constraints, hconstraints, ?_, hnone⟩
  intro q hq
  have heq := (hconstraints q.1).symm.trans (hall q hq).constraints
  injection heq

/-- The clause in the text of a request is true of a path exactly when every node on the path passes
the filters, and there is none exactly when nothing is filtered. -/
theorem clause_true_iff {first second : Int} {filters : Filters} {request : PathRequest}
    (hkeys : ∀ s, filters.selection = .ok s → s.KeysDistinct)
    (h : build nodeVariable (.int first) (.int second) filters = .ok request) :
    ∃ selection constraints clause, filters.selection = .ok selection ∧
      (∀ c, selection.constraintsOf c = .ok (constraints c)) ∧
      readClause request.text = some clause ∧
      (clause = none ↔ ∀ c, (selection.get c).isGiven = false) ∧
      ∀ (compare : Comparison → Value → Value → Truth) (nodes : List Node),
        (∀ condition ∈ clause,
          condition.truth ⟨compare, request.parameters, pathVariable, nodes⟩ [] = some true) ↔
        ∀ n ∈ nodes, Admits compare first second constraints n := by
  rcases build_eq_ok h with ⟨selection, hselection, hpredicates, -, -, hconditions, hparameters⟩
  obtain ⟨hcategories, hall⟩ :=
    compiles_of_compileAll (hkeys selection hselection) hpredicates
  rcases exists_constraints hcategories hall with ⟨constraints, hconstraints, hsome, hnone⟩
  have hnodup : (request.predicates.map (·.1)).Nodup := by
    rw [hcategories]
    exact selection.nodup_given
  rcases get?_parameters hnodup hall hparameters with ⟨hfirst, hsecond, hget⟩
  have hlegible : ∀ c ∈ request.conditions, c.Legible ∧ c.isAtom = true := by
    rw [hconditions]
    intro c hc
    rcases List.mem_map.mp hc with ⟨q, hq, rfl⟩
    exact legible_conditionOn (hall q hq)
  refine ⟨selection, constraints, joinedConditions request.conditions, hselection, hconstraints,
    readClause_text hlegible, ?_, ?_⟩
  · have hempty : request.predicates = [] ↔ selection.given = [] := by
      rw [← List.map_eq_nil_iff, hcategories, List.map_eq_nil_iff]
    rw [joinedConditions_eq_none, hconditions, List.map_eq_nil_iff, hempty, Selection.given_eq_nil]
  · intro compare nodes
    rw [truth_joinedConditions, hconditions, List.forall_mem_map]
    have htruth : ∀ q ∈ request.predicates,
        ((conditionOn q.1 q.2).truth ⟨compare, request.parameters, pathVariable, nodes⟩ [] =
          some true ↔ ∀ n ∈ nodes, q.1.label ∈ n.labels →
            (∀ k ∈ constraints q.1, k.Holds compare n) ∨
              q.1 = .person ∧ Excepted compare first second n) := by
      intro q hq
      rw [hsome q hq]
      exact truth_conditionOn (hall q hq) rfl hfirst hsecond (hget q hq)
    simp only [admits_iff]
    constructor
    · intro hconditions n hn c hlabel
      by_cases hc : ∃ q ∈ request.predicates, q.1 = c
      · rcases hc with ⟨q, hq, rfl⟩
        exact (htruth q hq).mp (hconditions q hq) n hn hlabel
      · -- A category without a predicate has no constraints.
        left
        rw [hnone c fun q hq heq => hc ⟨q, hq, heq⟩]
        intro k hk
        cases hk
    · intro hadmits q hq
      exact (htruth q hq).mpr fun n hn hlabel => hadmits n hn q.1 hlabel

/-- Filters for movies of some length and for people. -/
def someFilters : Filters :=
  .given (.map [("movie", .map [("runtime_IN", .list [.int 90, .int 120])]),
    ("person_filter", .map [("adult", .bool false), ("name", .text "Anna")])])

/-- The clause of a request with `someFilters` is there, and is true of the paths whose nodes
pass. -/
theorem clause_of_someFilters :
    (∀ s, someFilters.selection = .ok s → s.KeysDistinct) ∧
      ∃ request constraints condition,
        build nodeVariable (.int 1) (.int 2) someFilters = .ok request ∧
        readClause request.text = some (some condition) ∧
        ∀ (compare : Comparison → Value → Value → Truth) (nodes : List Node),
          condition.truth ⟨compare, request.parameters, pathVariable, nodes⟩ [] = some true ↔
            ∀ n ∈ nodes, Admits compare 1 2 constraints n := by
  have hkeys : ∀ s, someFilters.selection = .ok s → s.KeysDistinct := by
    intro s hs c entries hget
    cases hs
    cases c <;> cases hget <;> decide
  refine ⟨hkeys, ?_⟩
  obtain ⟨request, hrequest⟩ :
      ∃ request, build nodeVariable (.int 1) (.int 2) someFilters = .ok request := ⟨_, rfl⟩
  obtain ⟨selection, constraints, clause, hselection, -, hread, hnone, htruth⟩ :=
    clause_true_iff hkeys hrequest
  cases hselection
  cases clause with
  | none => exact absurd (hnone.mp rfl .movie) (by decide)
  | some condition =>
      refine ⟨request, constraints, condition, hrequest, hread, ?_⟩
      intro compare nodes
      rw [← htruth compare nodes]
      simp

end PathRequest

end Costar
