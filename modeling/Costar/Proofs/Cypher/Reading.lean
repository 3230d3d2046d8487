import Costar.Proofs.Cypher.Tokens
import Mathlib.Data.List.Basic

/-!
# Reading conditions

The grammar of conditions, as a function from tokens to the condition that they spell.  Outside of
brackets `OR` separates alternatives, and within an alternative `AND` separates its parts; what is
left is a comparison, a list of parameters that a property is looked for in, a condition in
parentheses, or a condition on every node of a path that has a label.

Main results:

- Definitions `readCondition` and `readClause`: the grammar of conditions, and where a query has
  one.
- Definition `Passes`: what it is for tokens to hold no separator outside of brackets.
- Theorems `Divides.of_passes` and `Divides.append`: what separators divide tokens into.
- Theorems `readQuery_of_passes` and `readQuery_where`: where the condition of a query is found.
-/

namespace Costar.Cypher

/-! ## Splitting outside of brackets -/

namespace Token

/-- The token between the parts of an alternative. -/
def andWord : Token := .word "AND".toList

/-- The token between alternatives. -/
def orWord : Token := .word "OR".toList

/-- The token before the condition of a query. -/
def whereWord : Token := .word "WHERE".toList

/-- The token before what a query returns. -/
def returnWord : Token := .word "RETURN".toList

/-- The words that separate the parts of a query; no name is one of them. -/
def separators : List Token :=
  [andWord, orWord, whereWord, returnWord]

/-- How many brackets are open behind a token, if some are open before it. -/
def depthAfter (depth : Nat) : Token → Nat
  | .mark '(' | .mark '[' | .mark '\x7b' => depth + 1
  | .mark ')' | .mark ']' | .mark '\x7d' => depth - 1
  | _ => depth

end Token

/-- Puts tokens at the beginning of the first of several parts. -/
def extend (ts : List Token) : List (List Token) → List (List Token)
  | [] => [ts]
  | part :: parts => (ts ++ part) :: parts

/-- The parts of a list of tokens between the separators that stand outside of all brackets, when
some brackets are open before it. -/
def split (separator : Token) : Nat → List Token → List (List Token)
  | _, [] => [[]]
  | depth, t :: ts =>
    if depth = 0 ∧ t = separator then [] :: split separator 0 ts
    else extend [t] (split separator (t.depthAfter depth) ts)

/-! ## The grammar -/

/-- The one condition that several, joined from left to right, make. -/
def joined (join : Condition → Condition → Condition) : List Condition → Option Condition
  | [] => none
  | first :: rest => some (rest.foldl join first)

/-- Leaves out the tokens of a text that has to come first. -/
def skip (text : String) (ts : List Token) : Option (List Token) :=
  ts.dropPrefix? (Token.ofText text)

/-- Reads a name. -/
def readName : List Token → Option (String × List Token)
  | .word name :: rest => some (String.ofList name, rest)
  | _ => none

/-- Reads references to parameters up to the end of a list. -/
def readReferences : List Token → Option (List String)
  | [.mark '$', .word name, .mark ']'] => some [String.ofList name]
  | .mark '$' :: .word name :: .mark ',' :: rest =>
    (readReferences rest).map (String.ofList name :: ·)
  | _ => none

/-- Reads a comparison of a property with a parameter or with each of a list of parameters. -/
def readComparison (ts : List Token) : Option Condition := do
  let (node, ts) ← readName ts
  let (field, ts) ← readName (← skip "." ts)
  match ts with
  | [.sign comparison, .mark '$', .word parameter] =>
    some (.compare ⟨node, field⟩ comparison (String.ofList parameter))
  | ts => (readReferences (← skip "IN [" ts)).map (.memberOf ⟨node, field⟩)

/-- Reads a condition in parentheses. -/
def readGroup (read : List Token → Option Condition) (ts : List Token) : Option Condition := do
  let ts ← skip "(" ts
  let body ← ts.dropSuffix? [.mark ')']
  (read body).map .group

/-- Reads a condition on every node that has a label. -/
def readEveryNode (read : List Token → Option Condition) (ts : List Token) :
    Option Condition := do
  let (node, ts) ← readName (← skip "all(" ts)
  let (inner, ts) ← readName (← skip "IN [" ts)
  let (path, ts) ← readName (← skip "IN nodes(" ts)
  let (labelled, ts) ← readName (← skip ") WHERE" ts)
  let (label, ts) ← readName (← skip ":" ts)
  let ts ← skip "] WHERE" ts
  let body ← ts.dropSuffix? [.mark ')']
  if labelled = inner then (read body).map (.everyNode node inner path label) else none

/-- Reads what `AND` separates. -/
def readConjunction (read : List Token → Option Condition) (ts : List Token) :
    Option Condition := do
  joined .both (← (split .andWord 0 ts).mapM read)

/-- Reads what `OR` separates. -/
def readDisjunction (read : List Token → Option Condition) (ts : List Token) :
    Option Condition := do
  joined .either (← (split .orWord 0 ts).mapM (readConjunction read))

/-- Reads a condition without `AND` and `OR` outside of brackets, and with brackets nested less
deep than a bound. -/
def readAtom : Nat → List Token → Option Condition
  | 0, _ => none
  | depth + 1, ts =>
    readComparison ts <|> readGroup (readDisjunction (readAtom depth)) ts <|>
      readEveryNode (readDisjunction (readAtom depth)) ts

/-- Reads a condition.  Brackets cannot be nested deeper than there are tokens. -/
def readCondition (ts : List Token) : Option Condition :=
  readDisjunction (readAtom ts.length) ts

/-- Reads the condition of a query, between the words before it and behind it.  A query may have
none; what cannot be read gives nothing at all. -/
def readQuery (ts : List Token) : Option (Option Condition) :=
  match split .returnWord 0 ts with
  | [query, _] =>
    match split .whereWord 0 query with
    | [_] => some none
    | [_, clause] => (readCondition clause).map some
    | _ => none
  | _ => none

/-- Reads the condition in the text of a query. -/
def readClause (text : String) : Option (Option Condition) :=
  readQuery (Token.ofText text)

/-! ## What splitting passes over -/

theorem extend_append (ts us : List Token) (parts : List (List Token)) :
    extend (ts ++ us) parts = extend ts (extend us parts) := by
  cases parts with
  | nil => rfl
  | cons part parts => simp [extend]

theorem split_ne_nil (separator : Token) (depth : Nat) (ts : List Token) :
    split separator depth ts ≠ [] := by
  cases ts with
  | nil => simp [split]
  | cons t ts =>
      rw [split]
      split
      · simp
      · cases split separator (t.depthAfter depth) ts <;> simp [extend]

/-- Whether splitting passes over tokens, from some number of open brackets to another. -/
def Passes (separator : Token) (start finish : Nat) (ts : List Token) : Prop :=
  ∀ rest, split separator start (ts ++ rest) = extend ts (split separator finish rest)

namespace Passes

variable {separator : Token} {start middle finish : Nat} {ts us : List Token}

theorem nil (separator : Token) (start : Nat) : Passes separator start start [] := by
  intro rest
  rw [List.nil_append]
  cases h : split separator start rest with
  | nil => exact absurd h (split_ne_nil separator start rest)
  | cons part parts => rfl

theorem append (hts : Passes separator start middle ts) (hus : Passes separator middle finish us) :
    Passes separator start finish (ts ++ us) := by
  intro rest
  rw [List.append_assoc, hts, hus, extend_append]

theorem cons {t : Token} (ht : ¬(start = 0 ∧ t = separator))
    (hts : Passes separator (t.depthAfter start) finish ts) :
    Passes separator start finish (t :: ts) := by
  intro rest
  rw [List.cons_append, split, if_neg ht, hts, ← extend_append]
  rfl

end Passes

/-- Whether splitting passes over tokens, token by token. -/
def passes (separator : Token) (finish : Nat) : Nat → List Token → Bool
  | depth, [] => depth == finish
  | depth, t :: ts =>
    !(depth == 0 && t == separator) && passes separator finish (t.depthAfter depth) ts

theorem Passes.of_passes {separator : Token} {start finish : Nat} {ts : List Token}
    (h : passes separator finish start ts = true) : Passes separator start finish ts := by
  induction ts generalizing start with
  | nil =>
      obtain rfl : start = finish := by simpa [passes] using h
      exact Passes.nil separator start
  | cons t ts ih =>
      simp only [passes, Bool.and_eq_true, Bool.not_eq_true', Bool.and_eq_false_imp] at h
      refine Passes.cons ?_ (ih h.2)
      rintro ⟨hstart, ht⟩
      have := h.1 (by simpa using hstart)
      simp [ht] at this

/-- What the separators outside of brackets divide tokens into, also when more follow behind one
more separator. -/
structure Divides (separator : Token) (ts : List Token) (parts : List (List Token)) : Prop where
  alone : split separator 0 ts = parts
  before : ∀ rest, split separator 0 (ts ++ separator :: rest) =
    parts ++ split separator 0 rest

namespace Divides

variable {separator : Token} {ts us : List Token} {parts others : List (List Token)}

theorem of_passes (h : Passes separator 0 0 ts) : Divides separator ts [ts] where
  alone := by
    have hsplit := h []
    rw [List.append_nil] at hsplit
    rw [hsplit]
    simp [split, extend]
  before := by
    intro rest
    rw [h, split, if_pos ⟨rfl, rfl⟩]
    simp [extend]

theorem append (hts : Divides separator ts parts) (hus : Divides separator us others) :
    Divides separator (ts ++ separator :: us) (parts ++ others) where
  alone := by
    rw [hts.before, hus.alone]
  before := by
    intro rest
    rw [List.append_assoc, List.cons_append, hts.before, hus.before, List.append_assoc]

end Divides

/-- A query without a condition. -/
theorem readQuery_of_passes {ts result : List Token} (hreturn : Passes .returnWord 0 0 ts)
    (hwhere : Passes .whereWord 0 0 ts) (hresult : Passes .returnWord 0 0 result) :
    readQuery (ts ++ .returnWord :: result) = some none := by
  have hsplit := ((Divides.of_passes hreturn).append (Divides.of_passes hresult)).alone
  have hquery := (Divides.of_passes hwhere).alone
  simp [readQuery, hsplit, hquery]

/-- A query with a condition. -/
theorem readQuery_where {ts clause result : List Token} (hreturn : Passes .returnWord 0 0 ts)
    (hwhere : Passes .whereWord 0 0 ts) (hclauseReturn : Passes .returnWord 0 0 clause)
    (hclauseWhere : Passes .whereWord 0 0 clause) (hresult : Passes .returnWord 0 0 result) :
    readQuery (ts ++ .whereWord :: clause ++ .returnWord :: result) =
      (readCondition clause).map some := by
  have hboth : Passes .returnWord 0 0 (ts ++ .whereWord :: clause) :=
    hreturn.append (Passes.cons (by decide) hclauseReturn)
  have hsplit := ((Divides.of_passes hboth).append (Divides.of_passes hresult)).alone
  have hquery := ((Divides.of_passes hwhere).append (Divides.of_passes hclauseWhere)).alone
  rw [List.singleton_append] at hsplit hquery
  rw [readQuery, hsplit]
  simp only [hquery]

end Costar.Cypher
