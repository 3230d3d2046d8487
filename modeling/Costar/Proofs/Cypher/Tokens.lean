import Costar.Cypher.Condition

/-!
# Tokens of the query language

The text of a query as words, comparison signs and single marks.  The text is cut from its end to
its beginning: a character of a word joins the word that stands right behind it, and a `>` or `<`
joins an equality sign.  Blanks keep words and signs apart and are left out in the end.

Main results:

- Definition `Token.ofText`: the tokens of a text.
- Theorem `Token.ofChars_word`: a word is one token, if no character of a word follows.
- Theorem `Token.ofChars_sign`: a comparison sign between blanks is one token.
-/

namespace Costar.Cypher

/-- A token of the query language. -/
inductive Token where
  | blank
  | word (name : List Char)
  | sign (comparison : Comparison)
  | mark (c : Char)
deriving DecidableEq, Repr

/-- Whether a character can be part of a word. -/
def isWordChar (c : Char) : Bool :=
  c.isAlphanum || c == '_'

/-- Whether a character separates tokens. -/
def isSpace (c : Char) : Bool :=
  c == ' ' || c == '\n'

namespace Token

/-- Puts a character of a word before the tokens of the text behind it. -/
def pushWord (c : Char) : List Token → List Token
  | .word name :: rest => .word (c :: name) :: rest
  | behind => .word [c] :: behind

/-- Puts a sign or a mark before the tokens of the text behind it. -/
def pushMark (c : Char) (behind : List Token) : List Token :=
  match c, behind with
  | '>', .sign .eq :: rest => .sign .ge :: rest
  | '<', .sign .eq :: rest => .sign .le :: rest
  | '>', rest => .sign .gt :: rest
  | '<', rest => .sign .lt :: rest
  | '=', rest => .sign .eq :: rest
  | c, rest => .mark c :: rest

/-- Puts a character before the tokens of the text behind it. -/
def push (c : Char) (behind : List Token) : List Token :=
  if isWordChar c then pushWord c behind
  else if isSpace c then .blank :: behind
  else pushMark c behind

/-- The tokens of a text, the blanks among them. -/
def pieces (cs : List Char) : List Token :=
  cs.foldr push []

/-- The tokens of a text. -/
def ofChars (cs : List Char) : List Token :=
  (pieces cs).filter (· != .blank)

/-- The tokens of a text. -/
def ofText (text : String) : List Token :=
  ofChars text.toList

/-! ## Where tokens end -/

/-- Whether a text does not begin with a character of a word. -/
def Detached (cs : List Char) : Prop :=
  ∀ c rest, cs = c :: rest → isWordChar c = false

theorem detached_cons {c : Char} {cs : List Char} (h : isWordChar c = false) :
    Detached (c :: cs) := by
  intro d rest hd
  cases hd
  exact h

theorem pieces_cons (c : Char) (cs : List Char) : pieces (c :: cs) = push c (pieces cs) :=
  rfl

/-- Only a character of a word begins a word. -/
theorem pieces_ne_word {cs : List Char} (h : Detached cs) (name : List Char)
    (rest : List Token) : pieces cs ≠ .word name :: rest := by
  cases cs with
  | nil =>
      intro heq
      cases heq
  | cons c cs =>
      have hc : isWordChar c = false := h c cs rfl
      rw [pieces_cons, push, if_neg (by simp [hc])]
      by_cases hspace : isSpace c = true
      · simp [if_pos hspace]
      · rw [if_neg hspace]
        unfold pushMark
        split <;> simp

theorem push_of_isWordChar {c : Char} {behind : List Token} (hc : isWordChar c = true)
    (hbehind : ∀ name rest, behind ≠ .word name :: rest) :
    push c behind = .word [c] :: behind := by
  rw [push, if_pos hc]
  unfold pushWord
  split
  · rename_i name rest
    exact absurd rfl (hbehind name rest)
  · rfl

theorem push_word {c : Char} {name : List Char} {rest : List Token} (hc : isWordChar c = true) :
    push c (.word name :: rest) = .word (c :: name) :: rest := by
  rw [push, if_pos hc, pushWord]

theorem pieces_word {w cs : List Char} (hne : w ≠ []) (hw : ∀ c ∈ w, isWordChar c = true)
    (hcs : Detached cs) : pieces (w ++ cs) = .word w :: pieces cs := by
  induction w with
  | nil => exact absurd rfl hne
  | cons c w ih =>
      have hc : isWordChar c = true := hw c List.mem_cons_self
      rw [List.cons_append, pieces_cons]
      by_cases hempty : w = []
      · subst hempty
        exact push_of_isWordChar hc (pieces_ne_word hcs)
      · rw [ih hempty fun d hd => hw d (List.mem_cons_of_mem c hd), push_word hc]

/-! ## Single tokens -/

/-- A word is one token, unless a character of a word follows. -/
theorem ofChars_word {w cs : List Char} (hne : w ≠ []) (hw : ∀ c ∈ w, isWordChar c = true)
    (hcs : Detached cs) : ofChars (w ++ cs) = .word w :: ofChars cs := by
  unfold ofChars
  rw [pieces_word hne hw hcs, List.filter_cons_of_pos (by simp)]

theorem ofChars_space {c : Char} {cs : List Char} (hword : isWordChar c = false)
    (hspace : isSpace c = true) : ofChars (c :: cs) = ofChars cs := by
  unfold ofChars
  rw [pieces_cons, push, if_neg (by simp [hword]), if_pos hspace,
    List.filter_cons_of_neg (by simp)]

/-- A comparison sign is one token, if a blank follows. -/
theorem ofChars_sign (op : Comparison) (cs : List Char) :
    ofChars (op.sign.toList ++ ' ' :: cs) = .sign op :: ofChars cs := by
  cases op <;> rfl

theorem push_append_blank (c : Char) (ts us : List Token) :
    push c (ts ++ .blank :: us) = push c ts ++ .blank :: us := by
  unfold push
  by_cases hword : isWordChar c = true
  · rw [if_pos hword, if_pos hword]
    cases ts with
    | nil => rfl
    | cons t ts => cases t <;> rfl
  · rw [if_neg hword, if_neg hword]
    by_cases hspace : isSpace c = true
    · rw [if_pos hspace, if_pos hspace, List.cons_append]
    · rw [if_neg hspace, if_neg hspace]
      cases ts with
      | nil =>
          unfold pushMark
          split <;> simp_all
      | cons t ts =>
          unfold pushMark
          split <;> simp_all

/-- A blank keeps the text before it and the text behind it apart. -/
theorem ofChars_append_space {c : Char} (hword : isWordChar c = false) (hspace : isSpace c = true)
    (cs ds : List Char) : ofChars (cs ++ c :: ds) = ofChars cs ++ ofChars ds := by
  have hpieces : pieces (cs ++ c :: ds) = pieces cs ++ .blank :: pieces ds := by
    induction cs with
    | nil => simp [push, hword, hspace, pieces]
    | cons b cs ih => rw [List.cons_append, pieces_cons, ih, push_append_blank, ← pieces_cons]
  unfold ofChars
  rw [hpieces, List.filter_append, List.filter_cons_of_neg (by simp)]

end Token

end Costar.Cypher
