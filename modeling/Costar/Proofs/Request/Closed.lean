import Costar.Proofs.Cypher.References
import Costar.Proofs.Request.Assembly
import Costar.Proofs.Request.Clause
import Mathlib.Algebra.GroupWithZero.Nat

/-!
# The parameters that a request refers to

The text of a request refers to the two ids and to the parameters of all constraints, and these are
the parameters that the request has: none is missing, none is spare, and none stands for two
constraints.

Main results:

- Definition `PathRequest.references`: the parameters that the text of a request refers to.
- Theorem `PathRequest.mem_references_assemble`: they are the ids and those of the constraints.
- Definition `PathRequest.Closed`: what it is for a request to bind what it refers to, once each.
- Theorem `PathRequest.closed_of_build`: every request that is built is so.
-/

namespace Costar

open Cypher

namespace PathRequest

/-! ## References in the text of a request -/

/-- The parameters that the text of a request refers to, from left to right. -/
def references (r : PathRequest) : List String :=
  Token.references (Token.ofText r.text)

theorem references_pattern (ts : List Token) :
    Token.references (Token.ofText pattern ++ ts) =
      firstParameter :: secondParameter :: Token.references ts := by
  have hlast : (Token.ofText pattern).getLast? ≠ some (.mark '$') := by decide +kernel
  have hids : Token.references (Token.ofText pattern) = [firstParameter, secondParameter] := by
    decide +kernel
  rw [Token.references_append hlast, hids]
  rfl

/-- A request refers to the two ids and, behind them, to the parameters of its conditions. -/
theorem references_eq {r : PathRequest} (h : ∀ c ∈ r.conditions, c.Legible) :
    r.references =
      firstParameter :: secondParameter :: r.conditions.flatMap Condition.parameters := by
  have hreturned : Token.references (.returnWord :: [.word pathVariable.toList]) = [] := rfl
  unfold references
  cases hconditions : r.conditions with
  | nil => rw [ofText_text_of_nil hconditions, references_pattern, hreturned, List.flatMap_nil]
  | cons first rest =>
      rw [hconditions] at h
      rw [ofText_text_of_cons hconditions h, List.append_assoc, references_pattern,
        List.cons_append, Token.whereWord, Token.references_word, Condition.references_tokens,
        hreturned, List.append_nil, Condition.parameters_conjunction]

/-! ## References of assembled requests -/

variable {node : String} {s : Selection} {constraints : Category → List Constraint}
variable {first second : Int}

/-- The condition of a category refers to the parameters of its constraints; that of people refers
to the ids, too. -/
theorem parameters_conditionOn {c : Category} {ks : List Constraint} {p : Predicate}
    (hp : Predicate.assemble node ks = some p) :
    (conditionOn c p).parameters = ks.flatMap Constraint.names ++
      if c = .person then [firstParameter, secondParameter] else [] := by
  have hcondition : p.condition.parameters = ks.flatMap Constraint.names := by
    cases ks with
    | nil => cases hp
    | cons k rest =>
        cases hp
        simp only [Condition.parameters_conjunction, List.flatMap_cons, List.flatMap_map,
          Constraint.parameters_condition]
  rw [← hcondition]
  cases c with
  | person => rfl
  | movie => exact (List.append_nil _).symm
  | episode => exact (List.append_nil _).symm

/-- The conditions of an assembled request can be read back. -/
theorem legible_assemble (hnode : IsName node)
    (h : ∀ c, s.constraintsOf c = .ok (constraints c)) :
    ∀ c ∈ (assemble node first second constraints).conditions, c.Legible ∧ c.isAtom = true := by
  intro condition hcondition
  rcases List.mem_map.mp hcondition with ⟨⟨c, p⟩, hp, rfl⟩
  have hcompile : Predicate.compile node c (s.get c) = .ok (some p) := by
    rw [compile_get, h, ← mem_predicatesOf.mp hp]
    rfl
  rcases Predicate.compile_eq_ok hcompile with ⟨_, _, _, _, _, hmade⟩
  rcases hmade p rfl with ⟨-, parts, hparts⟩
  exact legible_of_made hparts hnode

/-- An assembled request refers to the ids and to the parameters of all constraints. -/
theorem mem_references_assemble (hnode : IsName node)
    (h : ∀ c, s.constraintsOf c = .ok (constraints c)) {name : String} :
    name ∈ (assemble node first second constraints).references ↔
      name = firstParameter ∨ name = secondParameter ∨
        ∃ c, ∃ k ∈ constraints c, name ∈ k.names := by
  rw [references_eq fun c hc => (legible_assemble hnode h c hc).1, List.mem_cons, List.mem_cons]
  constructor
  · rintro (hfirst | hsecond | hname)
    · exact Or.inl hfirst
    · exact Or.inr (Or.inl hsecond)
    · rcases List.mem_flatMap.mp hname with ⟨condition, hcondition, hname⟩
      rcases List.mem_map.mp hcondition with ⟨⟨c, p⟩, hp, rfl⟩
      rw [parameters_conditionOn (mem_predicatesOf.mp hp), List.mem_append] at hname
      rcases hname with hconstraint | hid
      · exact Or.inr (Or.inr ⟨c, List.mem_flatMap.mp hconstraint⟩)
      · -- The ids, as the condition on people refers to them.
        split at hid
        · rcases List.mem_cons.mp hid with hfirst | hsecond
          · exact Or.inl hfirst
          · exact Or.inr (Or.inl (List.mem_singleton.mp hsecond))
        · cases hid
  · rintro (hfirst | hsecond | ⟨c, k, hk, hname⟩)
    · exact Or.inl hfirst
    · exact Or.inr (Or.inl hsecond)
    · refine Or.inr (Or.inr ?_)
      obtain ⟨p, hp⟩ := Predicate.exists_assemble_of_mem hk node
      refine List.mem_flatMap.mpr
        ⟨conditionOn c p, List.mem_map_of_mem (mem_predicatesOf.mpr hp), ?_⟩
      rw [parameters_conditionOn hp]
      exact List.mem_append_left _ (List.mem_flatMap.mpr ⟨k, hk, hname⟩)

/-! ## Closed requests -/

/-- Whether a request binds the parameters that it refers to and no others, each of them once: to an
id, or to an operand of the only constraint whose parameter it is. -/
structure Closed (r : PathRequest) (constraints : Category → List Constraint) : Prop where
  referenced : ∀ name, name ∈ r.references ↔ name ∈ Record.keys r.parameters
  distinct : (Record.keys r.parameters).Nodup
  length : r.parameters.length =
    2 + (Category.all.map fun c => ((constraints c).map Constraint.arity).sum).sum
  first : r.parameters.get? firstParameter = some (.int r.first)
  second : r.parameters.get? secondParameter = some (.int r.second)
  kept : ∀ c k, r.Keeps c k ↔ k ∈ constraints c
  sole : ∀ c, ∀ k ∈ constraints c, ∀ name ∈ k.names,
    (name ≠ firstParameter ∧ name ≠ secondParameter) ∧
      ∀ d, ∀ l ∈ constraints d, name ∈ l.names → d = c ∧ l = k

/-- The parameters of constraints, with distinct keys within each category, belong to one of them
each. -/
theorem eq_of_mem_names (hkeys : s.KeysDistinct)
    (h : ∀ c, s.constraintsOf c = .ok (constraints c)) {c d : Category} {k l : Constraint}
    (hk : k ∈ constraints c) (hl : l ∈ constraints d) {name : String} (hnameK : name ∈ k.names)
    (hnameL : name ∈ l.names) : d = c ∧ l = k := by
  have hdeclaredK := declared_of_constraintsOf (h c) k hk
  have hdeclaredL := declared_of_constraintsOf (h d) l hl
  obtain ⟨rfl, hfield, hoperator⟩ :=
    Constraint.eq_of_mem_names hdeclaredK hdeclaredL hnameK hnameL
  refine ⟨rfl, List.inj_on_of_nodup_map (keys_of_constraintsOf hkeys (h c)) hl hk ?_⟩
  rw [Constraint.key, Constraint.key, hfield, hoperator]

/-- An assembled request is closed. -/
theorem closed_assemble (hnode : IsName node) (hkeys : s.KeysDistinct)
    (h : ∀ c, s.constraintsOf c = .ok (constraints c)) :
    (assemble node first second constraints).Closed constraints := by
  obtain ⟨hparameters, hnodup⟩ := parameters_assemble node first second hkeys h
  have hnames : Record.keys (assemble node first second constraints).parameters =
      firstParameter :: secondParameter ::
        Category.all.flatMap fun c => (constraints c).flatMap Constraint.names := by
    have hflatMap := fun c => Constraint.keys_flatMap_bindings (declared_of_constraintsOf (h c))
    rw [hparameters]
    simp only [Record.keys, List.map_append, List.map_flatMap] at hflatMap ⊢
    simp only [hflatMap]
    rfl
  refine ⟨?_, hnodup, ?_, ?_, ?_, ?_, ?_⟩
  · intro name
    rw [mem_references_assemble hnode h, hnames]
    simp [Category.mem_all]
  · have hlength : ∀ c, ((constraints c).flatMap Constraint.names).length =
        ((constraints c).map Constraint.arity).sum := by
      intro c
      simp only [List.length_flatMap, Constraint.length_names]
    rw [← List.length_map Prod.fst]
    change (Record.keys _).length = _
    rw [hnames, List.length_cons, List.length_cons, List.length_flatMap]
    simp only [hlength]
    omega
  · exact Record.get?_of_mem hnodup (by rw [hparameters]; simp [ids, assemble])
  · exact Record.get?_of_mem hnodup (by rw [hparameters]; simp [ids, assemble])
  · intro c k
    exact keeps_assemble node first second hkeys h
  · intro c k hk name hname
    refine ⟨ids_ne_of_mem_names (declared_of_constraintsOf (h c) k hk) hname, ?_⟩
    intro d l hl hother
    exact eq_of_mem_names hkeys h hk hl hname hother

/-- Every request that is built is closed under the constraints that its filters are read as. -/
theorem closed_of_build (hnode : IsName node) {filters : Filters} {request : PathRequest}
    (hkeys : ∀ s, filters.selection = .ok s → s.KeysDistinct)
    (h : build node (.int first) (.int second) filters = .ok request) :
    ∃ selection constraints, filters.selection = .ok selection ∧
      (∀ c, selection.constraintsOf c = .ok (constraints c)) ∧
      request.first = first ∧ request.second = second ∧ request.Closed constraints := by
  rcases build_eq_ok_iff.mp h with ⟨m, n, s, constraints, hm, hn, hs, hconstraints, rfl⟩
  cases hm
  cases hn
  exact ⟨s, constraints, hs, hconstraints, rfl, rfl,
    closed_assemble hnode (hkeys s hs) hconstraints⟩

/-- Filters whose keys are close to each other. -/
def nearKeys : Filters :=
  .given (.map [
    ("movie", .map [("budget_GT", .int 1), ("budget_GTE", .int 2),
      ("budget_IN", .list [.int 9, .int 3]), ("budget", .int 5),
      ("genres", .list [.text "Drama"])]),
    ("episode", .map [("episode", .int 4), ("episode_id", .text "e"), ("episode_IN",
      .tuple [.int 1, .int 7])]),
    ("person_filter", .map [("person_id", .int 6)])])

/-- A request with `nearKeys` is closed; it has two parameters for the ids, one for each key and a
second one for each range.  The genres are kept in a tuple, which is sent as a list. -/
theorem closed_of_nearKeys :
    IsName nodeVariable ∧ (∀ s, nearKeys.selection = .ok s → s.KeysDistinct) ∧
      ∃ request constraints, build nodeVariable (.int 1) (.int 2) nearKeys = .ok request ∧
        request.Closed constraints ∧ request.parameters.length = 13 ∧
        ⟨"movie", "genres", .compare .eq, [.tuple [.text "Drama"]]⟩ ∈ constraints .movie ∧
        request.parameters.get? "movie_genres_eq" = some (.list [.text "Drama"]) := by
  have hnode : IsName nodeVariable := by decide
  have hkeys : ∀ s, nearKeys.selection = .ok s → s.KeysDistinct := by
    intro s hs c entries hget
    cases hs
    cases c <;> cases hget <;> decide
  obtain ⟨request, hrequest, hlength⟩ : ∃ request,
      build nodeVariable (.int 1) (.int 2) nearKeys = .ok request ∧
        request.parameters.length = 13 := ⟨_, rfl, rfl⟩
  obtain ⟨selection, constraints, hs, hconstraints, -, -, hclosed⟩ :=
    closed_of_build hnode hkeys hrequest
  have hgenres : ⟨"movie", "genres", .compare .eq, [.tuple [.text "Drama"]]⟩ ∈
      constraints .movie := by
    cases hs
    rw [← Except.ok.inj (hconstraints .movie)]
    exact List.mem_of_getLast? rfl
  have hkept := ((hclosed.kept _ _).mpr hgenres).bound
  cases hkept with
  | cons hbound _ =>
      obtain ⟨v, hv, hsent⟩ := hbound
      cases hsent with
      | items vs =>
          exact ⟨hnode, hkeys, request, constraints, hrequest, hclosed, hlength, hgenres, hv⟩
      | same h => exact absurd rfl (h _)

end PathRequest

end Costar
