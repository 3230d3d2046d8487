import Costar.Proofs.Cypher.Legible

/-!
# Parameters that a text refers to

A name behind a `$` refers to a parameter.  The references in the text of a condition are those of
the condition, from left to right, whatever text stands behind it.

Main results:

- Definition `Token.references`: the parameters that tokens refer to.
- Theorem `Token.references_append`: the references of two texts, one behind the other.
- Theorem `Condition.references_tokens`: the references in a condition.
-/

namespace Costar.Cypher

namespace Token

/-- The parameters that tokens refer to, from left to right. -/
def references : List Token → List String
  | .mark '$' :: .word name :: rest => String.ofList name :: references rest
  | _ :: rest => references rest
  | [] => []

@[simp]
theorem references_reference (name : String) (ts : List Token) :
    references (.mark '$' :: .word name.toList :: ts) = name :: references ts := by
  rw [references, String.ofList_toList]

@[simp]
theorem references_word (name : List Char) (ts : List Token) :
    references (.word name :: ts) = references ts := by
  rw [references]
  simp

@[simp]
theorem references_sign (comparison : Comparison) (ts : List Token) :
    references (.sign comparison :: ts) = references ts := by
  rw [references]
  simp

@[simp]
theorem references_mark {c : Char} (hc : c ≠ '$') (ts : List Token) :
    references (.mark c :: ts) = references ts := by
  rw [references]
  simp [hc]

/-- The references of two texts, one behind the other; a `$` at the end of the first would make a
reference of what follows. -/
theorem references_append {ts us : List Token} (h : ts.getLast? ≠ some (.mark '$')) :
    references (ts ++ us) = references ts ++ references us := by
  fun_induction references ts with
  | case1 name rest ih =>
      have hrest : rest.getLast? ≠ some (.mark '$') := by
        cases rest with
        | nil => simp
        | cons t rest => simpa [List.getLast?_cons] using h
      rw [List.cons_append, List.cons_append, references, ih hrest, List.cons_append]
  | case2 t rest hnot ih =>
      have hrest : rest.getLast? ≠ some (.mark '$') := by
        cases rest with
        | nil => simp
        | cons t rest => simpa [List.getLast?_cons] using h
      rw [List.cons_append, references, ih hrest]
      intro name others ht hothers
      -- The word that would be referred to stands behind the whole of `ts`.
      cases rest with
      | nil => exact h (by rw [ht]; rfl)
      | cons u rest =>
          rw [List.cons_append] at hothers
          cases hothers
          exact hnot name rest ht rfl
  | case3 => rfl

end Token

namespace Condition

open Token

theorem references_referenceTokens (names : List String) (ts : List Token) :
    references (referenceTokens names ++ .mark ']' :: ts) = names ++ references ts := by
  induction names with
  | nil => simp [referenceTokens]
  | cons name names ih =>
      cases names with
      | nil => simp [referenceTokens]
      | cons other names =>
          have hstep : referenceTokens (name :: other :: names) = .mark '$' :: .word name.toList ::
              .mark ',' :: referenceTokens (other :: names) := rfl
          rw [hstep, List.cons_append, List.cons_append, List.cons_append, references_reference,
            references_mark (by decide), ih, ← List.cons_append]

/-- The references in a condition are its parameters, from left to right. -/
theorem references_tokens (c : Condition) (ts : List Token) :
    references (c.tokens ++ ts) = c.parameters ++ references ts := by
  induction c generalizing ts with
  | compare property comparison parameter => simp [tokens, parameters]
  | memberOf property parameters =>
      have hin : Token.ofText "IN [" = [.word "IN".toList, .mark '['] := rfl
      rw [tokens, hin]
      simp [Condition.parameters, references_referenceTokens]
  | group body ih => simp [tokens, parameters, ih]
  | both left right ihl ihr => simp [tokens, parameters, andWord, ihl, ihr]
  | either left right ihl ihr => simp [tokens, parameters, orWord, ihl, ihr]
  | everyNode node inner path label body ih =>
      rw [tokens, everyNodeTokens_eq]
      simp [parameters, whereWord, ih]

/-- The parameters of a conjunction are those of its parts. -/
theorem parameters_conjunction (first : Condition) (rest : List Condition) :
    (conjunction first rest).parameters = (first :: rest).flatMap parameters := by
  induction rest generalizing first with
  | nil => simp [conjunction]
  | cons second rest ih =>
      have hstep : conjunction first (second :: rest) = conjunction (both first second) rest := rfl
      rw [hstep, ih]
      simp [parameters]

end Condition

end Costar.Cypher
