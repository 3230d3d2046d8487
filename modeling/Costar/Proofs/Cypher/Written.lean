import Costar.Proofs.Cypher.Legible

/-!
# Conditions as they are written

The text of a condition has the tokens of the condition, whatever stands behind it, as long as that
does not begin with a character of a word.  So the text of a legible condition is read as the
condition.

Main results:

- Theorem `Condition.ofChars_text`: the tokens of the text of a condition.
- Theorem `Condition.ofChars_conjunction`: the same for conditions with `AND` between them.
-/

namespace Costar.Cypher

open Token

/-- A name is one token, unless a character of a word follows. -/
theorem IsName.ofChars {s : String} (h : IsName s) {cs : List Char} (hcs : Detached cs) :
    ofChars (s.toList ++ cs) = .word s.toList :: ofChars cs :=
  ofChars_word h.nonempty h.isWord hcs

namespace Condition

/-! ## Texts of conditions -/

theorem text_compare (property : Property) (comparison : Comparison) (parameter : String) :
    (compare property comparison parameter).text =
      property.text ++ " " ++ comparison.sign ++ " " ++ reference parameter :=
  rfl

theorem text_memberOf (property : Property) (parameters : List String) :
    (memberOf property parameters).text =
      property.text ++ " IN [" ++ ", ".intercalate (parameters.map reference) ++ "]" :=
  rfl

theorem text_group (body : Condition) : (group body).text = "(" ++ body.text ++ ")" :=
  rfl

theorem text_both (left right : Condition) :
    (both left right).text = left.text ++ " AND " ++ right.text :=
  rfl

theorem text_either (left right : Condition) :
    (either left right).text = left.text ++ " OR " ++ right.text :=
  rfl

/-- The text before the body of a condition on every node with a label. -/
def header (node inner path label : String) : String :=
  "all(" ++ node ++ " IN [" ++ inner ++ " IN nodes(" ++ path ++ ") WHERE " ++ inner ++ ":" ++
    label ++ "] WHERE "

theorem text_everyNode (node inner path label : String) (body : Condition) :
    (everyNode node inner path label body).text = header node inner path label ++ body.text ++ ")" :=
  rfl

/-- A conjunction is written with `AND` between its parts. -/
theorem text_conjunction (first : Condition) (rest : List Condition) :
    (conjunction first rest).text = " AND ".intercalate (first.text :: rest.map text) := by
  induction rest generalizing first with
  | nil => exact String.intercalate_singleton.symm
  | cons second rest ih =>
      calc (conjunction first (second :: rest)).text
          = " AND ".intercalate ((first.text ++ " AND " ++ second.text) :: rest.map text) :=
            ih (.both first second)
        _ = " AND ".intercalate (first.text :: (second :: rest).map text) := by
            rw [String.intercalate_cons_append, List.map_cons, String.intercalate_cons_cons]

/-! ## Tokens of the texts -/

theorem ofChars_property {property : Property} (hnode : IsName property.node)
    (hfield : IsName property.field) {cs : List Char} (hcs : Detached cs) :
    ofChars (property.text.toList ++ cs) =
      .word property.node.toList :: .mark '.' :: .word property.field.toList :: ofChars cs := by
  have htext : property.text.toList ++ cs =
      property.node.toList ++ '.' :: (property.field.toList ++ cs) := by
    simp [Property.text]
  have hdot : ∀ cs, ofChars ('.' :: cs) = .mark '.' :: ofChars cs := fun cs => rfl
  rw [htext, hnode.ofChars (detached_cons (by decide)), hdot, hfield.ofChars hcs]

theorem ofChars_reference {name : String} (h : IsName name) {cs : List Char} (hcs : Detached cs) :
    ofChars ((reference name).toList ++ cs) = .mark '$' :: .word name.toList :: ofChars cs := by
  have htext : (reference name).toList ++ cs = '$' :: (name.toList ++ cs) := by
    simp [reference]
  have hdollar : ∀ cs, ofChars ('$' :: cs) = .mark '$' :: ofChars cs := fun cs => rfl
  rw [htext, hdollar, h.ofChars hcs]

theorem ofChars_references {names : List String} (h : ∀ name ∈ names, IsName name)
    {cs : List Char} (hcs : Detached cs) :
    ofChars ((", ".intercalate (names.map reference)).toList ++ cs) =
      referenceTokens names ++ ofChars cs := by
  induction names with
  | nil => simp [referenceTokens]
  | cons name names ih =>
      have hname : IsName name := h name List.mem_cons_self
      have ih := ih fun other hother => h other (List.mem_cons_of_mem name hother)
      cases names with
      | nil =>
          rw [List.map_cons, List.map_nil, String.intercalate_singleton]
          exact ofChars_reference hname hcs
      | cons other names =>
          have htext : (", ".intercalate ((name :: other :: names).map reference)).toList ++ cs =
              (reference name).toList ++ ',' :: ' ' ::
                ((", ".intercalate ((other :: names).map reference)).toList ++ cs) := by
            simp [String.intercalate_cons_cons]
          have hcomma : ∀ cs, ofChars (',' :: ' ' :: cs) = .mark ',' :: ofChars cs :=
            fun cs => rfl
          rw [htext, ofChars_reference hname (detached_cons (by decide)), hcomma, ih]
          rfl

theorem ofChars_header {node inner path label : String} (hnode : IsName node)
    (hinner : IsName inner) (hpath : IsName path) (hlabel : IsName label) (cs : List Char) :
    ofChars ((header node inner path label).toList ++ cs) =
      everyNodeTokens node inner path label ++ ofChars cs := by
  have htext : (header node inner path label).toList ++ cs =
      'a' :: 'l' :: 'l' :: '(' :: (node.toList ++ ' ' :: 'I' :: 'N' :: ' ' :: '[' ::
        (inner.toList ++ ' ' :: 'I' :: 'N' :: ' ' :: 'n' :: 'o' :: 'd' :: 'e' :: 's' :: '(' ::
          (path.toList ++ ')' :: ' ' :: 'W' :: 'H' :: 'E' :: 'R' :: 'E' :: ' ' ::
            (inner.toList ++ ':' :: (label.toList ++
              ']' :: ' ' :: 'W' :: 'H' :: 'E' :: 'R' :: 'E' :: ' ' :: cs))))) := by
    simp [header]
  have hall : ∀ cs, ofChars ('a' :: 'l' :: 'l' :: '(' :: cs) =
      ofText "all(" ++ ofChars cs := fun cs => rfl
  have hin : ∀ cs, ofChars (' ' :: 'I' :: 'N' :: ' ' :: '[' :: cs) =
      ofText "IN [" ++ ofChars cs := fun cs => rfl
  have hnodes : ∀ cs, ofChars (' ' :: 'I' :: 'N' :: ' ' :: 'n' :: 'o' :: 'd' :: 'e' :: 's' ::
      '(' :: cs) = ofText "IN nodes(" ++ ofChars cs := fun cs => rfl
  have hwhere : ∀ cs, ofChars (')' :: ' ' :: 'W' :: 'H' :: 'E' :: 'R' :: 'E' :: ' ' :: cs) =
      ofText ") WHERE" ++ ofChars cs := fun cs => rfl
  have hcolon : ∀ cs, ofChars (':' :: cs) = ofText ":" ++ ofChars cs := fun cs => rfl
  have hbody : ∀ cs, ofChars (']' :: ' ' :: 'W' :: 'H' :: 'E' :: 'R' :: 'E' :: ' ' :: cs) =
      ofText "] WHERE" ++ ofChars cs := fun cs => rfl
  rw [htext, hall, hnode.ofChars (detached_cons (by decide)), hin,
    hinner.ofChars (detached_cons (by decide)), hnodes, hpath.ofChars (detached_cons (by decide)),
    hwhere, hinner.ofChars (detached_cons (by decide)), hcolon,
    hlabel.ofChars (detached_cons (by decide)), hbody]
  simp [everyNodeTokens]

/-- The text of a condition has the tokens of the condition. -/
theorem ofChars_text {c : Condition} (hc : c.Legible) {cs : List Char} (hcs : Detached cs) :
    ofChars (c.text.toList ++ cs) = c.tokens ++ ofChars cs := by
  induction c generalizing cs with
  | compare property comparison parameter =>
      rcases hc with ⟨hnode, hfield, hparameter⟩
      have htext : (compare property comparison parameter).text.toList ++ cs =
          property.text.toList ++ ' ' :: (comparison.sign.toList ++ ' ' ::
            ((reference parameter).toList ++ cs)) := by
        simp [text_compare]
      rw [htext, ofChars_property hnode hfield (detached_cons (by decide)),
        ofChars_space (by decide) (by decide), ofChars_sign, ofChars_reference hparameter hcs]
      rfl
  | memberOf property parameters =>
      rcases hc with ⟨hnode, hfield, -, hparameters⟩
      have htext : (memberOf property parameters).text.toList ++ cs =
          property.text.toList ++ ' ' :: 'I' :: 'N' :: ' ' :: '[' ::
            ((", ".intercalate (parameters.map reference)).toList ++ ']' :: cs) := by
        simp [text_memberOf]
      have hin : ∀ cs, ofChars (' ' :: 'I' :: 'N' :: ' ' :: '[' :: cs) =
          .word "IN".toList :: .mark '[' :: ofChars cs := fun cs => rfl
      have hclose : ∀ cs, ofChars (']' :: cs) = .mark ']' :: ofChars cs := fun cs => rfl
      rw [htext, ofChars_property hnode hfield (detached_cons (by decide)), hin,
        ofChars_references hparameters (detached_cons (by decide)), hclose]
      simp only [tokens, List.cons_append, List.append_assoc]
      rfl
  | group body ih =>
      have htext : (group body).text.toList ++ cs = '(' :: (body.text.toList ++ ')' :: cs) := by
        simp [text_group]
      have hopen : ∀ cs, ofChars ('(' :: cs) = .mark '(' :: ofChars cs := fun cs => rfl
      have hclose : ∀ cs, ofChars (')' :: cs) = .mark ')' :: ofChars cs := fun cs => rfl
      rw [htext, hopen, ih hc (detached_cons (by decide)), hclose]
      simp [tokens]
  | both left right ihl ihr =>
      rcases hc with ⟨hleft, hright, -, -⟩
      have htext : (both left right).text.toList ++ cs =
          left.text.toList ++ ' ' :: 'A' :: 'N' :: 'D' :: ' ' :: (right.text.toList ++ cs) := by
        simp [text_both]
      have hand : ∀ cs, ofChars (' ' :: 'A' :: 'N' :: 'D' :: ' ' :: cs) =
          .andWord :: ofChars cs := fun cs => rfl
      rw [htext, ihl hleft (detached_cons (by decide)), hand, ihr hright hcs]
      simp [tokens]
  | either left right ihl ihr =>
      rcases hc with ⟨hleft, hright, -⟩
      have htext : (either left right).text.toList ++ cs =
          left.text.toList ++ ' ' :: 'O' :: 'R' :: ' ' :: (right.text.toList ++ cs) := by
        simp [text_either]
      have hor : ∀ cs, ofChars (' ' :: 'O' :: 'R' :: ' ' :: cs) = .orWord :: ofChars cs :=
        fun cs => rfl
      rw [htext, ihl hleft (detached_cons (by decide)), hor, ihr hright hcs]
      simp [tokens]
  | everyNode node inner path label body ih =>
      rcases hc with ⟨hnode, hinner, hpath, hlabel, hbody⟩
      have hclose : ∀ cs, ofChars (')' :: cs) = .mark ')' :: ofChars cs := fun cs => rfl
      have htext : (everyNode node inner path label body).text.toList ++ cs =
          (header node inner path label).toList ++ (body.text.toList ++ ')' :: cs) := by
        simp [text_everyNode]
      rw [htext, ofChars_header hnode hinner hpath hlabel, ih hbody (detached_cons (by decide)),
        hclose]
      simp [tokens]

theorem tokens_conjunction (first : Condition) (rest : List Condition) :
    (conjunction first rest).tokens =
      first.tokens ++ rest.flatMap fun c => .andWord :: c.tokens := by
  induction rest generalizing first with
  | nil => simp [conjunction]
  | cons second rest ih =>
      have hstep : (conjunction first (second :: rest)).tokens =
          (conjunction (both first second) rest).tokens := rfl
      rw [hstep, ih, tokens, List.flatMap_cons]
      simp

/-- Conditions on lines of their own, with `AND` before all but the first, have the tokens of their
conjunction. -/
theorem ofChars_conjunction {first : Condition} {rest : List Condition}
    (h : ∀ c ∈ first :: rest, c.Legible) {cs : List Char} (hcs : Detached cs) :
    ofChars (("\nAND ".intercalate ((first :: rest).map text)).toList ++ cs) =
      (conjunction first rest).tokens ++ ofChars cs := by
  rw [tokens_conjunction]
  induction rest generalizing first with
  | nil =>
      rw [List.map_cons, List.map_nil, String.intercalate_singleton,
        ofChars_text (h first List.mem_cons_self) hcs]
      simp
  | cons second rest ih =>
      rcases List.forall_mem_cons.mp h with ⟨hfirst, hrest⟩
      have htext : ("\nAND ".intercalate ((first :: second :: rest).map text)).toList ++ cs =
          first.text.toList ++ '\n' :: 'A' :: 'N' :: 'D' :: ' ' ::
            (("\nAND ".intercalate ((second :: rest).map text)).toList ++ cs) := by
        simp [String.intercalate_cons_cons]
      have hand : ∀ cs, ofChars ('\n' :: 'A' :: 'N' :: 'D' :: ' ' :: cs) =
          .andWord :: ofChars cs := fun cs => rfl
      rw [htext, ofChars_text hfirst (detached_cons (by decide)), hand, ih hrest,
        List.flatMap_cons]
      simp

end Condition

end Costar.Cypher
