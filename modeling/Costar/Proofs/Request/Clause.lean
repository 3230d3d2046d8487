import Costar.Proofs.Cypher.Written
import Costar.Proofs.Request.Build

/-!
# The clause in the text of a request

The text of a request is read back with the grammar of the query language.  The pattern before the
conditions and what is returned behind them hold no separator outside of brackets, so what is read
between them is the conjunction of the conditions.

Main results:

- Theorems `PathRequest.text_of_nil` and `PathRequest.text_of_cons`: how a request is written.
- Theorem `PathRequest.readClause_text`: its clause is read as the conjunction of its conditions.
-/

namespace Costar

open Cypher

namespace PathRequest

/-! ## Texts of requests -/

/-- The text of a request up to its conditions: which people and which path. -/
def pattern : String :=
  "MATCH " ++ personPattern "p1" firstParameter ++ ", " ++
    personPattern "p2" secondParameter ++ ", " ++ "\n" ++
    (pathVariable ++ " = shortestPath((p1)-[:" ++ "|".intercalate creditTypes ++ "*]-(p2))")

/-- The pattern holds none of the words that separate the parts of a query. -/
theorem passes_pattern {separator : Token} (h : separator ∈ Token.separators) :
    Passes separator 0 0 (Token.ofText pattern) := by
  have hall : (Token.separators.all fun t => passes t 0 0 (Token.ofText pattern)) = true := by
    decide +kernel
  exact Passes.of_passes (List.all_eq_true.mp hall separator h)

theorem text_of_nil {r : PathRequest} (h : r.conditions = []) :
    r.text.toList = pattern.toList ++ '\n' :: ("RETURN " ++ pathVariable).toList := by
  unfold text whereClause
  rw [h]
  simp only [List.isEmpty_nil, if_true, List.append_nil, List.cons_append, List.nil_append,
    String.intercalate_cons_cons, String.intercalate_singleton]
  unfold pattern
  simp only [String.toList_append, List.append_assoc]
  rfl

theorem text_of_cons {r : PathRequest} {first : Condition} {rest : List Condition}
    (h : r.conditions = first :: rest) :
    r.text.toList = pattern.toList ++ '\n' :: 'W' :: 'H' :: 'E' :: 'R' :: 'E' :: ' ' ::
      (("\nAND ".intercalate ((first :: rest).map Condition.text)).toList ++
        '\n' :: ("RETURN " ++ pathVariable).toList) := by
  unfold text whereClause
  rw [h, if_neg (by simp)]
  generalize "\nAND ".intercalate ((first :: rest).map Condition.text) = joined
  simp only [List.cons_append, List.nil_append, String.intercalate_cons_cons,
    String.intercalate_singleton]
  unfold pattern
  simp only [String.toList_append, List.append_assoc]
  rfl

theorem ofChars_returned : Token.ofChars ("RETURN " ++ pathVariable).toList =
    [.returnWord, .word pathVariable.toList] := by
  decide

/-! ## Conditions of categories -/

/-- The condition that a predicate puts on a path can be read back. -/
theorem legible_of_made {node : String} {c : Category} {p : Predicate}
    {parts : List (Condition × Record String)} (hmade : p.Made node c parts) (hnode : IsName node) :
    (conditionOn c p).Legible ∧ (conditionOn c p).isAtom = true := by
  rcases hmade.legible hnode with ⟨hlegible, -⟩
  have hvariable : IsName nodeVariable := by decide
  have hlabel : IsName c.label := by
    cases c <;> decide
  refine ⟨⟨hvariable, by decide, by decide, hlabel, ?_⟩, rfl⟩
  cases c with
  | person =>
      refine ⟨hlegible, ⟨hvariable, by decide, by simp, ?_⟩, rfl⟩
      decide
  | movie => exact hlegible
  | episode => exact hlegible

/-- The condition of a category can be read back. -/
theorem Compiles.legible {node : String} {s : Selection} {q : Category × Predicate}
    (hq : Compiles node s q) (hnode : IsName node) :
    (conditionOn q.1 q.2).Legible ∧ (conditionOn q.1 q.2).isAtom = true := by
  rcases hq.made with ⟨parts, hmade⟩
  exact legible_of_made hmade hnode

/-! ## Reading the text of a request -/

/-- The one condition that several make; none where there are none. -/
def joinedConditions : List Condition → Option Condition
  | [] => none
  | first :: rest => some (.conjunction first rest)

theorem ofText_text_of_nil {r : PathRequest} (h : r.conditions = []) :
    Token.ofText r.text =
      Token.ofText pattern ++ .returnWord :: [.word pathVariable.toList] := by
  rw [Token.ofText, text_of_nil h, Token.ofChars_append_space (by decide) (by decide),
    ofChars_returned]
  rfl

/-- Between the pattern and what is returned stand the tokens of the conjunction of all
conditions. -/
theorem ofText_text_of_cons {r : PathRequest} {first : Condition} {rest : List Condition}
    (h : r.conditions = first :: rest) (hlegible : ∀ c ∈ first :: rest, c.Legible) :
    Token.ofText r.text = Token.ofText pattern ++
      .whereWord :: (Condition.conjunction first rest).tokens ++
        .returnWord :: [.word pathVariable.toList] := by
  have hwhere : ∀ cs, Token.ofChars ('W' :: 'H' :: 'E' :: 'R' :: 'E' :: ' ' :: cs) =
      .whereWord :: Token.ofChars cs := fun cs => rfl
  rw [Token.ofText, text_of_cons h, Token.ofChars_append_space (by decide) (by decide), hwhere,
    Condition.ofChars_conjunction hlegible (Token.detached_cons (by decide)),
    Token.ofChars_space (by decide) (by decide), ofChars_returned, List.append_assoc]
  rfl

/-- The clause of a request is read as the conjunction of its conditions. -/
theorem readClause_text {r : PathRequest}
    (h : ∀ c ∈ r.conditions, c.Legible ∧ c.isAtom = true) :
    readClause r.text = some (joinedConditions r.conditions) := by
  have hpatternReturn : Passes .returnWord 0 0 (Token.ofText pattern) :=
    passes_pattern (by decide)
  have hpatternWhere : Passes .whereWord 0 0 (Token.ofText pattern) :=
    passes_pattern (by decide)
  have hresult : Passes .returnWord 0 0 [.word pathVariable.toList] :=
    Passes.of_passes (by decide)
  cases hconditions : r.conditions with
  | nil =>
      rw [readClause, ofText_text_of_nil hconditions,
        readQuery_of_passes hpatternReturn hpatternWhere hresult]
      rfl
  | cons first rest =>
      rw [hconditions] at h
      rcases List.forall_mem_cons.mp h with ⟨⟨hfirst, hatom⟩, hrest⟩
      obtain ⟨hlegible, hconj⟩ := Condition.legible_conjunction hfirst
        (Condition.isConjunction_of_isAtom hatom) hrest
      have hclauseReturn : Passes .returnWord 0 0 (Condition.conjunction first rest).tokens :=
        Condition.passes_outside hlegible (by decide) (fun h => absurd h (by decide))
          (fun _ => hconj)
      have hclauseWhere : Passes .whereWord 0 0 (Condition.conjunction first rest).tokens :=
        Condition.passes_outside hlegible (by decide) (fun h => absurd h (by decide))
          (fun _ => hconj)
      rw [readClause, ofText_text_of_cons hconditions (fun c hc => (h c hc).1),
        readQuery_where hpatternReturn hpatternWhere hclauseReturn hclauseWhere hresult,
        Condition.readCondition_tokens hlegible]
      rfl

end PathRequest

end Costar
