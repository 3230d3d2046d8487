import Costar.PathRequest
import Costar.Proofs.Filter.Conditions

/-!
# What a request is built from

A request holds one predicate for each category that has a filter, and the parameters of all of
them next to the two ids.  No parameter is given twice, so each of them is found with its value in
the parameters of the request.

Main results:

- Theorem `PathRequest.build_eq_ok`: what a request that can be built consists of.
- Theorem `PathRequest.compiles_of_compileAll`: its predicates are those of the categories with
  filters.
- Theorem `PathRequest.get?_parameters`: the parameters of every predicate are found in it.
-/

namespace Costar

open Cypher

/-! ## Filters of categories -/

theorem Category.mem_all (c : Category) : c ∈ all := by
  cases c <;> decide

namespace Predicate

theorem entries_of_not_given {v : Value} (h : v.isGiven = false) : entries v = .ok [] := by
  cases v with
  | map es =>
      obtain rfl : es = [] := by simpa [Value.isGiven] using h
      rfl
  | _ => simp [entries, h]

theorem entries_eq_ok {v : Value} {es : List (Text × Value)} (h : entries v = .ok es) :
    v = .map es ∨ es = [] ∧ v.isGiven = false := by
  cases v with
  | map fs =>
      cases h
      exact Or.inl rfl
  | _ =>
      simp only [entries] at h
      split at h
      · cases h
      · rename_i hnot
        cases h
        exact Or.inr ⟨rfl, by simpa using hnot⟩

end Predicate

namespace Selection

/-- The constraints of a category's filter. -/
def constraintsOf (s : Selection) (c : Category) : Except Failure (List Constraint) := do
  Predicate.constraintsOf c (← Predicate.entries (s.get c))

/-- Whether in no category's filter a key stands twice. -/
def KeysDistinct (s : Selection) : Prop :=
  ∀ c entries, s.get c = .map entries → (Record.keys entries).Nodup

theorem mem_given {s : Selection} {c : Category} {v : Value} :
    (c, v) ∈ s.given ↔ v = s.get c ∧ v.isGiven = true := by
  unfold given
  rw [List.mem_filter, List.mem_map]
  constructor
  · rintro ⟨⟨d, -, hd⟩, hgiven⟩
    cases hd
    exact ⟨rfl, hgiven⟩
  · rintro ⟨rfl, hgiven⟩
    exact ⟨⟨c, c.mem_all, rfl⟩, hgiven⟩

theorem given_eq_nil {s : Selection} : s.given = [] ↔ ∀ c, (s.get c).isGiven = false := by
  rw [List.eq_nil_iff_forall_not_mem]
  constructor
  · intro hempty c
    by_contra hgiven
    exact hempty (c, s.get c) (mem_given.mpr ⟨rfl, by simpa using hgiven⟩)
  · rintro hnot ⟨c, v⟩ hmem
    rcases mem_given.mp hmem with ⟨rfl, hgiven⟩
    rw [hnot c] at hgiven
    cases hgiven

theorem nodup_given (s : Selection) : (s.given.map (·.1)).Nodup := by
  have hsublist : (s.given.map (·.1)).Sublist Category.all := by
    have hmap : (Category.all.map fun c => (c, s.get c)).map (·.1) = Category.all := rfl
    rw [← hmap]
    exact List.filter_sublist.map _
  exact hsublist.nodup (by decide)

end Selection

namespace PathRequest

/-! ## The parts of a request -/

theorem build_eq_ok {node : String} {first second : Int} {filters : Filters}
    {request : PathRequest}
    (h : build node (.int first) (.int second) filters = .ok request) :
    ∃ selection, filters.selection = .ok selection ∧
      compileAll node selection.given = .ok request.predicates ∧
      request.first = first ∧ request.second = second ∧
      request.conditions = request.predicates.map (fun e => conditionOn e.1 e.2) ∧
      request.parameters = request.predicates.foldl
        (fun acc e => Record.merge acc e.2.parameters)
        [(firstParameter, .int first), (secondParameter, .int second)] := by
  simp only [build, Failure.bind_eq_ok] at h
  rcases h with ⟨_, hfirst, _, hsecond, selection, hselection, predicates, hpredicates, hrequest⟩
  cases hfirst
  cases hsecond
  cases hrequest
  exact ⟨selection, hselection, hpredicates, rfl, rfl, rfl, rfl⟩

/-- Every filter that is given is compiled to a predicate. -/
theorem compileAll_eq_ok {node : String} {given : List (Category × Value)}
    {predicates : List (Category × Predicate)} (h : compileAll node given = .ok predicates)
    (hgiven : ∀ e ∈ given, e.2.isGiven = true) :
    List.Forall₂ (fun e q => q.1 = e.1 ∧ Predicate.compile node e.1 e.2 = .ok (some q.2))
      given predicates := by
  rcases Failure.bind_eq_ok.mp h with ⟨compiled, hcompiled, h⟩
  cases h
  have hall := Failure.mapM_eq_ok.mp hcompiled
  clear hcompiled h
  induction hall with
  | nil => exact List.Forall₂.nil
  | @cons e found given compiled hfound _ ih =>
      rcases List.forall_mem_cons.mp hgiven with ⟨hfirst, hrest⟩
      rcases Failure.bind_eq_ok.mp hfound with ⟨predicate, hpredicate, hfound⟩
      rcases Predicate.compile_eq_ok hpredicate with ⟨entries, ks, hentries, -, hnone, -⟩
      cases predicate with
      | none =>
          -- A filter that is given has entries, so it is compiled to something.
          exfalso
          rcases Predicate.entries_eq_ok hentries with hmap | ⟨-, hnot⟩
          · rw [hmap, hnone rfl] at hfirst
            cases hfirst
          · rw [hfirst] at hnot
            cases hnot
      | some p =>
          cases hfound
          exact List.Forall₂.cons ⟨rfl, hpredicate⟩ (ih hrest)

/-- Whether a predicate is what the filter of its category is compiled to. -/
structure Compiles (node : String) (s : Selection) (q : Category × Predicate) : Prop where
  constraints : s.constraintsOf q.1 = .ok q.2.constraints
  made : ∃ parts, q.2.Made node q.1 parts
  nodup : (q.2.constraints.map Constraint.key).Nodup

/-- The predicates of a request are those of the categories that have a filter. -/
theorem compiles_of_compileAll {node : String} {s : Selection}
    {predicates : List (Category × Predicate)} (hkeys : s.KeysDistinct)
    (h : compileAll node s.given = .ok predicates) :
    predicates.map (·.1) = s.given.map (·.1) ∧ ∀ q ∈ predicates, Compiles node s q := by
  have hall := compileAll_eq_ok h fun e he => (Selection.mem_given.mp he).2
  have hcategory : ∀ e ∈ s.given, e.2 = s.get e.1 := fun e he => (Selection.mem_given.mp he).1
  clear h
  generalize s.given = given at hall hcategory
  induction hall with
  | nil => exact ⟨rfl, by simp⟩
  | @cons e q given predicates hq _ ih =>
      rcases List.forall_mem_cons.mp hcategory with ⟨hfirst, hrest⟩
      rcases ih hrest with ⟨hmap, hcompiles⟩
      rcases hq with ⟨hcat, hcompile⟩
      refine ⟨by rw [List.map_cons, List.map_cons, hcat, hmap], ?_⟩
      refine List.forall_mem_cons.mpr ⟨?_, hcompiles⟩
      rcases Predicate.compile_eq_ok hcompile with ⟨entries, ks, hentries, hks, -, hmade⟩
      rcases hmade q.2 rfl with ⟨hconstraints, parts, hparts⟩
      rw [← hcat, ← hconstraints] at hks
      rw [hfirst, ← hcat] at hentries
      have hmade' : ∃ parts, q.2.Made node q.1 parts := ⟨parts, by rw [hcat]; exact hparts⟩
      refine ⟨Failure.bind_eq_ok.mpr ⟨entries, hentries, hks⟩, hmade', ?_⟩
      rw [(Predicate.constraintsOf_eq_ok hks).2]
      rcases Predicate.entries_eq_ok hentries with hget | ⟨rfl, -⟩
      · exact hkeys q.1 entries hget
      · exact List.nodup_nil

/-! ## The parameters of a request -/

variable {node : String} {s : Selection} {predicates : List (Category × Predicate)}

theorem Compiles.exists_of_mem_keys {q : Category × Predicate} (hq : Compiles node s q)
    {name : String} (h : name ∈ Record.keys q.2.parameters) :
    ∃ k : Constraint, k.Declared q.1 ∧ name ∈ k.names := by
  rcases hq.made with ⟨parts, hmade⟩
  rw [hmade.keys_parameters hq.nodup, List.mem_flatMap] at h
  rcases h with ⟨k, hk, hname⟩
  exact ⟨k, hmade.declared k hk, hname⟩

/-- No parameter of a constraint has the name of an id. -/
theorem ids_ne_of_mem_names {c : Category} {k : Constraint} {name : String}
    (hk : k.Declared c) (h : name ∈ k.names) : name ≠ firstParameter ∧ name ≠ secondParameter := by
  have hnone : ∀ c : Category, ¬ c.name.toList <+: firstParameter.toList ∧
      ¬ c.name.toList <+: secondParameter.toList := by
    intro c
    cases c <;> decide
  rcases Constraint.toList_of_mem_names h with ⟨ending, -, hname⟩
  have hbegins : c.name.toList <+: name.toList := by
    rw [hname, hk.category]
    exact List.prefix_append _ _
  constructor
  · rintro rfl
    exact (hnone c).1 hbegins
  · rintro rfl
    exact (hnone c).2 hbegins

/-- The ids and the parameters of all predicates have distinct names. -/
theorem nodup_keys (first second : Int) (hcategories : (predicates.map (·.1)).Nodup)
    (hall : ∀ q ∈ predicates, Compiles node s q) :
    (Record.keys ([(firstParameter, .int first), (secondParameter, .int second)] ++
      predicates.flatMap (·.2.parameters))).Nodup := by
  have hkeys : Record.keys (predicates.flatMap (·.2.parameters)) =
      predicates.flatMap fun q => Record.keys q.2.parameters := by
    rw [Record.keys, List.map_flatMap]
    rfl
  have hids : (Record.keys [(firstParameter, .int first), (secondParameter, .int second)]).Nodup := by
    change [firstParameter, secondParameter].Nodup
    decide
  have happend : Record.keys ([(firstParameter, .int first), (secondParameter, .int second)] ++
      predicates.flatMap (·.2.parameters)) =
      [firstParameter, secondParameter] ++ Record.keys (predicates.flatMap (·.2.parameters)) :=
    List.map_append
  rw [happend, hkeys, List.nodup_append]
  refine ⟨hids, ?_, ?_⟩
  · rw [List.nodup_flatMap]
    constructor
    · intro q hq
      rcases (hall q hq).made with ⟨parts, hmade⟩
      rw [hmade.keys_parameters (hall q hq).nodup]
      exact Constraint.nodup_names hmade.declared (hall q hq).nodup
    · rw [List.Nodup, List.pairwise_map] at hcategories
      apply hcategories.imp_of_mem
      intro q r hq hr hne name hnameQ hnameR
      rcases (hall q hq).exists_of_mem_keys hnameQ with ⟨k, hk, hnameK⟩
      rcases (hall r hr).exists_of_mem_keys hnameR with ⟨l, hl, hnameL⟩
      exact hne (Constraint.eq_of_mem_names hk hl hnameK hnameL).1
  · intro a ha name hname
    rcases List.mem_flatMap.mp hname with ⟨q, hq, hname⟩
    rcases (hall q hq).exists_of_mem_keys hname with ⟨k, hk, hnameK⟩
    rcases ids_ne_of_mem_names hk hnameK with ⟨hfirst, hsecond⟩
    rcases List.mem_cons.mp ha with rfl | ha
    · exact hfirst.symm
    · obtain rfl := List.mem_singleton.mp ha
      exact hsecond.symm

/-- The parameters of a request are the ids and behind them those of every predicate. -/
theorem parameters_eq (first second : Int) (hcategories : (predicates.map (·.1)).Nodup)
    (hall : ∀ q ∈ predicates, Compiles node s q) :
    predicates.foldl (fun acc e => Record.merge acc e.2.parameters)
        [(firstParameter, .int first), (secondParameter, .int second)] =
      [(firstParameter, .int first), (secondParameter, .int second)] ++
        predicates.flatMap (·.2.parameters) := by
  rw [← Record.merge_of_nodup (nodup_keys first second hcategories hall), Record.merge,
    List.foldl_flatMap]
  rfl

/-- The ids, and the parameters of every predicate, are found in the parameters of a request. -/
theorem get?_parameters {first second : Int} {r : Record String}
    (hcategories : (predicates.map (·.1)).Nodup) (hall : ∀ q ∈ predicates, Compiles node s q)
    (hr : r = predicates.foldl (fun acc e => Record.merge acc e.2.parameters)
      [(firstParameter, .int first), (secondParameter, .int second)]) :
    r.get? firstParameter = some (.int first) ∧ r.get? secondParameter = some (.int second) ∧
      ∀ q ∈ predicates, ∀ name v, (name, v) ∈ q.2.parameters → r.get? name = some v := by
  have hnodup := nodup_keys first second hcategories hall
  rw [hr, parameters_eq first second hcategories hall]
  refine ⟨Record.get?_of_mem hnodup (by simp), Record.get?_of_mem hnodup (by simp), ?_⟩
  intro q hq name v hmem
  refine Record.get?_of_mem hnodup (List.mem_append_right _ ?_)
  exact List.mem_flatMap.mpr ⟨q, hq, hmem⟩

end PathRequest

end Costar
