import Costar.Proofs.Cypher.Reading

/-!
# Legible conditions

A condition is written without more parentheses than its groups, so it can only be read back if
its parts are bound as tightly as their places demand: the right side of `AND` is neither a
conjunction nor an alternative, and no side of it is an alternative.  Names must be words, and none
of those that separate.

Main results:

- Definition `Condition.tokens`: the tokens in which a condition is written.
- Theorem `Condition.passes_outside`: a legible condition holds no separator outside of brackets,
  except for those that it is made with.
- Theorem `Condition.readCondition_tokens`: a legible condition is read as itself.
-/

namespace Costar.Cypher

/-- Whether a text can be the name of a variable, a property, a label or a parameter. -/
structure IsName (s : String) : Prop where
  nonempty : s.toList ≠ []
  isWord : ∀ c ∈ s.toList, isWordChar c = true
  not_separator : Token.word s.toList ∉ Token.separators

theorem IsName.word_ne {s : String} {separator : Token} (h : IsName s)
    (hsep : separator ∈ Token.separators) : Token.word s.toList ≠ separator := by
  rintro rfl
  exact h.not_separator hsep

namespace Token

variable {separator : Token}

theorem mark_ne_separator (hsep : separator ∈ separators) (c : Char) : .mark c ≠ separator := by
  rintro rfl
  simp [separators, andWord, orWord, whereWord, returnWord] at hsep

theorem sign_ne_separator (hsep : separator ∈ separators) (comparison : Comparison) :
    .sign comparison ≠ separator := by
  rintro rfl
  simp [separators, andWord, orWord, whereWord, returnWord] at hsep

end Token

namespace Condition

/-! ## Tokens of a condition -/

/-- The tokens of references to parameters, with commas between them. -/
def referenceTokens : List String → List Token
  | [] => []
  | [name] => [.mark '$', .word name.toList]
  | name :: names => .mark '$' :: .word name.toList :: .mark ',' :: referenceTokens names

/-- The tokens before the body of a condition on every node with a label. -/
def everyNodeTokens (node inner path label : String) : List Token :=
  Token.ofText "all(" ++ (.word node.toList :: (Token.ofText "IN [" ++
    (.word inner.toList :: (Token.ofText "IN nodes(" ++ (.word path.toList ::
      (Token.ofText ") WHERE" ++ (.word inner.toList :: (Token.ofText ":" ++
        (.word label.toList :: Token.ofText "] WHERE")))))))))

/-- The tokens in which a condition is written. -/
def tokens : Condition → List Token
  | .compare property comparison parameter =>
    [.word property.node.toList, .mark '.', .word property.field.toList, .sign comparison,
      .mark '$', .word parameter.toList]
  | .memberOf property parameters =>
    .word property.node.toList :: .mark '.' :: .word property.field.toList ::
      (Token.ofText "IN [" ++ (referenceTokens parameters ++ [.mark ']']))
  | .group body => .mark '(' :: (body.tokens ++ [.mark ')'])
  | .both left right => left.tokens ++ .andWord :: right.tokens
  | .either left right => left.tokens ++ .orWord :: right.tokens
  | .everyNode node inner path label body =>
    everyNodeTokens node inner path label ++ (body.tokens ++ [.mark ')'])

/-- Whether a condition is neither a conjunction nor an alternative. -/
def isAtom : Condition → Bool
  | .both .. | .either .. => false
  | _ => true

/-- Whether a condition is no alternative. -/
def isConjunction : Condition → Bool
  | .either .. => false
  | _ => true

theorem isConjunction_of_isAtom {c : Condition} (h : c.isAtom = true) :
    c.isConjunction = true := by
  cases c with
  | either left right => cases h
  | _ => rfl

/-- Whether a condition is written so that it can be read back. -/
def Legible : Condition → Prop
  | .compare property _ parameter =>
    IsName property.node ∧ IsName property.field ∧ IsName parameter
  | .memberOf property parameters =>
    IsName property.node ∧ IsName property.field ∧ parameters ≠ [] ∧
      ∀ parameter ∈ parameters, IsName parameter
  | .group body => body.Legible
  | .both left right =>
    left.Legible ∧ right.Legible ∧ left.isConjunction = true ∧ right.isAtom = true
  | .either left right => left.Legible ∧ right.Legible ∧ right.isConjunction = true
  | .everyNode node inner path label body =>
    IsName node ∧ IsName inner ∧ IsName path ∧ IsName label ∧ body.Legible

/-- How deep the brackets of a condition are nested, one more than none. -/
def depth : Condition → Nat
  | .compare .. | .memberOf .. => 1
  | .group body | .everyNode _ _ _ _ body => body.depth + 1
  | .both left right | .either left right => max left.depth right.depth

theorem depth_le_length (c : Condition) : c.depth ≤ c.tokens.length := by
  induction c with
  | compare property comparison parameter => simp [depth, tokens]
  | memberOf property parameters => simp [depth, tokens]
  | group body ih =>
      simp only [depth, tokens, List.length_cons, List.length_append]
      omega
  | both left right ihl ihr =>
      simp only [depth, tokens, List.length_cons, List.length_append]
      omega
  | either left right ihl ihr =>
      simp only [depth, tokens, List.length_cons, List.length_append]
      omega
  | everyNode node inner path label body ih =>
      simp only [depth, tokens, List.length_cons, List.length_append]
      omega

/-- A conjunction of legible atoms is legible. -/
theorem legible_conjunction {first : Condition} {rest : List Condition} (hfirst : first.Legible)
    (hconj : first.isConjunction = true) (hrest : ∀ c ∈ rest, c.Legible ∧ c.isAtom = true) :
    (conjunction first rest).Legible ∧ (conjunction first rest).isConjunction = true := by
  induction rest generalizing first with
  | nil => exact ⟨hfirst, hconj⟩
  | cons second rest ih =>
      rcases List.forall_mem_cons.mp hrest with ⟨hsecond, hrest⟩
      exact @ih (both first second) ⟨hfirst, hsecond.1, hconj, hsecond.2⟩ rfl hrest

/-! ## Separators in a condition -/

variable {separator : Token}

theorem passes_referenceTokens (names : List String) (start : Nat) :
    Passes separator (start + 1) (start + 1) (referenceTokens names) := by
  induction names with
  | nil => exact Passes.nil separator (start + 1)
  | cons name names ih =>
      cases names with
      | nil => exact Passes.of_passes (by simp [referenceTokens, passes, Token.depthAfter])
      | cons other names =>
          have hfirst : Passes separator (start + 1) (start + 1)
              [.mark '$', .word name.toList, .mark ','] :=
            Passes.of_passes (by simp [passes, Token.depthAfter])
          exact hfirst.append ih

theorem everyNodeTokens_eq (node inner path label : String) :
    everyNodeTokens node inner path label =
      .word "all".toList :: .mark '(' :: [.word node.toList, .word "IN".toList, .mark '[',
        .word inner.toList, .word "IN".toList, .word "nodes".toList, .mark '(',
        .word path.toList, .mark ')', .whereWord, .word inner.toList, .mark ':',
        .word label.toList, .mark ']', .whereWord] :=
  rfl

theorem passes_everyNodeTokens (node inner path label : String) (start : Nat)
    (hsep : start = 0 → separator ∈ Token.separators) :
    Passes separator start (start + 1) (everyNodeTokens node inner path label) := by
  rw [everyNodeTokens_eq]
  refine Passes.cons ?_ (Passes.cons ?_ ?_)
  · rintro ⟨hstart, rfl⟩
    exact absurd (hsep hstart) (by decide)
  · rintro ⟨hstart, rfl⟩
    exact absurd (hsep hstart) (by decide)
  · exact Passes.of_passes (by simp [passes, Token.depthAfter, Token.whereWord])

theorem passes_close (separator : Token) (start : Nat) :
    Passes separator (start + 1) start [.mark ')'] :=
  Passes.of_passes (by simp [passes, Token.depthAfter])

theorem passes_open (start : Nat) (hsep : start = 0 → separator ∈ Token.separators) :
    Passes separator start (start + 1) [.mark '('] := by
  refine Passes.cons ?_ (Passes.nil separator (start + 1))
  rintro ⟨hstart, rfl⟩
  exact absurd (hsep hstart) (by decide)

/-- Inside of brackets a condition holds no separator that counts. -/
theorem passes_tokens (c : Condition) (start : Nat) :
    Passes separator (start + 1) (start + 1) c.tokens := by
  induction c generalizing start with
  | compare property comparison parameter =>
      exact Passes.of_passes (by simp [tokens, passes, Token.depthAfter])
  | memberOf property parameters =>
      have hproperty : Passes separator (start + 1) (start + 2) [.word property.node.toList,
          .mark '.', .word property.field.toList, .word "IN".toList, .mark '['] :=
        Passes.of_passes (by simp [passes, Token.depthAfter])
      have hclose : Passes separator (start + 2) (start + 1) [.mark ']'] :=
        Passes.of_passes (by simp [passes, Token.depthAfter])
      exact hproperty.append ((passes_referenceTokens parameters (start + 1)).append hclose)
  | group body ih =>
      exact (passes_open (start + 1) (by simp)).append
        ((ih (start + 1)).append (passes_close separator (start + 1)))
  | both left right ihl ihr =>
      have hand : Passes separator (start + 1) (start + 1) [.andWord] :=
        Passes.of_passes (by simp [passes, Token.depthAfter, Token.andWord])
      exact (ihl start).append (hand.append (ihr start))
  | either left right ihl ihr =>
      have hor : Passes separator (start + 1) (start + 1) [.orWord] :=
        Passes.of_passes (by simp [passes, Token.depthAfter, Token.orWord])
      exact (ihl start).append (hor.append (ihr start))
  | everyNode node inner path label body ih =>
      exact (passes_everyNodeTokens node inner path label (start + 1) (by simp)).append
        ((ih (start + 1)).append (passes_close separator (start + 1)))

/-- Outside of brackets a legible condition holds no separator but those it is made with. -/
theorem passes_outside {c : Condition} (hc : c.Legible) (hsep : separator ∈ Token.separators)
    (hand : separator = .andWord → c.isAtom = true)
    (hor : separator = .orWord → c.isConjunction = true) :
    Passes separator 0 0 c.tokens := by
  induction c with
  | compare property comparison parameter =>
      rcases hc with ⟨hnode, hfield, hparameter⟩
      have hmark : ∀ c, Token.mark c ≠ separator := Token.mark_ne_separator hsep
      have hsign : Token.sign comparison ≠ separator := Token.sign_ne_separator hsep comparison
      apply Passes.of_passes
      simp [tokens, passes, Token.depthAfter, hnode.word_ne hsep, hfield.word_ne hsep,
        hparameter.word_ne hsep, hmark, hsign]
  | memberOf property parameters =>
      rcases hc with ⟨hnode, hfield, -, -⟩
      have hmark : ∀ c, Token.mark c ≠ separator := Token.mark_ne_separator hsep
      have hin : Token.word ['I', 'N'] ≠ separator := by
        rintro rfl
        exact absurd hsep (by decide)
      have hproperty : Passes separator 0 1 [.word property.node.toList, .mark '.',
          .word property.field.toList, .word "IN".toList, .mark '['] :=
        Passes.of_passes (by simp [passes, Token.depthAfter, hnode.word_ne hsep,
          hfield.word_ne hsep, hin, hmark])
      have hclose : Passes separator 1 0 [.mark ']'] :=
        Passes.of_passes (by simp [passes, Token.depthAfter])
      exact hproperty.append ((passes_referenceTokens parameters 0).append hclose)
  | group body ih =>
      exact (passes_open 0 fun _ => hsep).append
        ((passes_tokens body 0).append (passes_close separator 0))
  | both left right ihl ihr =>
      rcases hc with ⟨hleft, hright, hleftConj, hrightAtom⟩
      have hne : separator ≠ .andWord := by
        intro heq
        simpa [isAtom] using hand heq
      have hword : Passes separator 0 0 [.andWord] :=
        Passes.cons (fun h => hne h.2.symm) (Passes.nil separator 0)
      have hl := ihl hleft (fun heq => absurd heq hne) (fun _ => hleftConj)
      have hr := ihr hright (fun _ => hrightAtom) (fun _ => isConjunction_of_isAtom hrightAtom)
      exact hl.append (hword.append hr)
  | either left right ihl ihr =>
      rcases hc with ⟨hleft, hright, hrightConj⟩
      have hneAnd : separator ≠ .andWord := by
        intro heq
        simpa [isAtom] using hand heq
      have hneOr : separator ≠ .orWord := by
        intro heq
        simpa [isConjunction] using hor heq
      have hword : Passes separator 0 0 [.orWord] :=
        Passes.cons (fun h => hneOr h.2.symm) (Passes.nil separator 0)
      have hl := ihl hleft (fun heq => absurd heq hneAnd) (fun heq => absurd heq hneOr)
      have hr := ihr hright (fun heq => absurd heq hneAnd) (fun _ => hrightConj)
      exact hl.append (hword.append hr)
  | everyNode node inner path label body ih =>
      exact (passes_everyNodeTokens node inner path label 0 fun _ => hsep).append
        ((passes_tokens body 0).append (passes_close separator 0))

/-! ## Reading a legible condition -/

theorem skip_append (text : String) (ts : List Token) :
    skip text (Token.ofText text ++ ts) = some ts :=
  List.dropPrefix?_append_of_beq ts (beq_self_eq_true _)

theorem skip_of_ne {text : String} {t u : Token} {ts us : List Token}
    (h : Token.ofText text = u :: us) (hne : t ≠ u) : skip text (t :: ts) = none := by
  unfold skip
  rw [h]
  simp [List.dropPrefix?, hne]

theorem dropSuffix?_close (body : List Token) :
    (body ++ [Token.mark ')']).dropSuffix? [.mark ')'] = some body :=
  List.dropSuffix?_eq_some_iff.mpr ⟨[.mark ')'], rfl, beq_self_eq_true _⟩

theorem readName_word (name : String) (ts : List Token) :
    readName (.word name.toList :: ts) = some (name, ts) := by
  rw [readName, String.ofList_toList]

theorem readReferences_tokens {names : List String} (h : names ≠ []) :
    readReferences (referenceTokens names ++ [.mark ']']) = some names := by
  induction names with
  | nil => exact absurd rfl h
  | cons name names ih =>
      cases names with
      | nil => simp [referenceTokens, readReferences]
      | cons other names =>
          have hrest := ih (List.cons_ne_nil other names)
          simp [referenceTokens, readReferences, hrest]

theorem readComparison_compare (property : Property) (comparison : Comparison)
    (parameter : String) :
    readComparison (compare property comparison parameter).tokens =
      some (.compare property comparison parameter) := by
  have hdot : ∀ ts, skip "." (.mark '.' :: ts) = some ts := skip_append "."
  simp [readComparison, tokens, readName, hdot]

theorem readComparison_memberOf (property : Property) {parameters : List String}
    (h : parameters ≠ []) :
    readComparison (memberOf property parameters).tokens =
      some (.memberOf property parameters) := by
  have hdot : ∀ ts, skip "." (.mark '.' :: ts) = some ts := skip_append "."
  have hin : ∀ ts, skip "IN [" (.word ['I', 'N'] :: .mark '[' :: ts) = some ts :=
    skip_append "IN ["
  have htokens : (memberOf property parameters).tokens =
      .word property.node.toList :: .mark '.' :: .word property.field.toList ::
        .word ['I', 'N'] :: .mark '[' :: (referenceTokens parameters ++ [.mark ']']) := rfl
  rw [htokens]
  simp [readComparison, readName, hdot, hin, readReferences_tokens h]

/-- A condition that does not begin with a property is no comparison. -/
theorem readComparison_group (body : Condition) : readComparison (group body).tokens = none := by
  simp [readComparison, tokens, readName]

theorem readComparison_everyNode (node inner path label : String) (body : Condition) :
    readComparison (everyNode node inner path label body).tokens = none := by
  have hdot : ∀ ts, skip "." (.mark '(' :: ts) = none := by
    have htext : Token.ofText "." = [.mark '.'] := rfl
    exact fun ts => skip_of_ne htext (by decide)
  rw [tokens, everyNodeTokens_eq]
  simp [readComparison, readName, hdot]

theorem readGroup_group {read : List Token → Option Condition} {body : Condition}
    (h : read body.tokens = some body) :
    readGroup read (group body).tokens = some (.group body) := by
  have hopen : ∀ ts, skip "(" (.mark '(' :: ts) = some ts := skip_append "("
  simp [readGroup, tokens, hopen, dropSuffix?_close, h]

theorem readGroup_everyNode (read : List Token → Option Condition)
    (node inner path label : String) (body : Condition) :
    readGroup read (everyNode node inner path label body).tokens = none := by
  have hopen : ∀ w ts, skip "(" (.word w :: ts) = none := by
    have htext : Token.ofText "(" = [.mark '('] := rfl
    exact fun w ts => skip_of_ne htext (by simp)
  rw [tokens, everyNodeTokens_eq]
  simp [readGroup, hopen]

theorem readEveryNode_everyNode {read : List Token → Option Condition} {body : Condition}
    (node inner path label : String) (h : read body.tokens = some body) :
    readEveryNode read (everyNode node inner path label body).tokens =
      some (.everyNode node inner path label body) := by
  simp only [tokens, everyNodeTokens, List.append_assoc, List.cons_append]
  simp [readEveryNode, skip_append, readName_word, dropSuffix?_close, h]

/-- The parts of a conjunction, from left to right. -/
def conjuncts : Condition → List Condition
  | .both left right => left.conjuncts ++ [right]
  | c => [c]

/-- The parts of an alternative, from left to right. -/
def alternatives : Condition → List Condition
  | .either left right => left.alternatives ++ [right]
  | c => [c]

end Condition

theorem joined_append {join : Condition → Condition → Condition} {parts : List Condition}
    {left : Condition} (h : joined join parts = some left) (right : Condition) :
    joined join (parts ++ [right]) = some (join left right) := by
  cases parts with
  | nil => cases h
  | cons first rest =>
      cases h
      simp [joined]

namespace Condition

theorem joined_conjuncts (c : Condition) : joined .both c.conjuncts = some c := by
  induction c with
  | both left right ihl _ => exact joined_append ihl right
  | _ => rfl

theorem joined_alternatives (c : Condition) : joined .either c.alternatives = some c := by
  induction c with
  | either left right ihl _ => exact joined_append ihl right
  | _ => rfl

theorem divides_conjuncts {c : Condition} (hc : c.Legible) (hconj : c.isConjunction = true) :
    Divides .andWord c.tokens (c.conjuncts.map tokens) := by
  induction c with
  | both left right ihl _ =>
      rcases hc with ⟨hleft, hright, hleftConj, hrightAtom⟩
      have hpasses : Passes .andWord 0 0 right.tokens :=
        passes_outside hright (by decide) (fun _ => hrightAtom)
          (fun _ => isConjunction_of_isAtom hrightAtom)
      have hdivides := (ihl hleft hleftConj).append (Divides.of_passes hpasses)
      rw [conjuncts, List.map_append]
      exact hdivides
  | either left right _ _ => cases hconj
  | _ => exact Divides.of_passes (passes_outside hc (by decide) (fun _ => rfl) (fun _ => rfl))

theorem divides_alternatives {c : Condition} (hc : c.Legible) :
    Divides .orWord c.tokens (c.alternatives.map tokens) := by
  induction c with
  | either left right ihl _ =>
      rcases hc with ⟨hleft, hright, hrightConj⟩
      have hpasses : Passes .orWord 0 0 right.tokens :=
        passes_outside hright (by decide) (fun h => absurd h (by decide)) (fun _ => hrightConj)
      have hdivides := (ihl hleft).append (Divides.of_passes hpasses)
      rw [alternatives, List.map_append]
      exact hdivides
  | _ =>
      exact Divides.of_passes (passes_outside hc (by decide) (fun h => absurd h (by decide))
        (fun _ => rfl))

/-- The parts of a legible conjunction are legible atoms. -/
theorem of_mem_conjuncts {c part : Condition} (hc : c.Legible) (hconj : c.isConjunction = true)
    (hpart : part ∈ c.conjuncts) :
    part.Legible ∧ part.isAtom = true ∧ part.depth ≤ c.depth := by
  induction c with
  | both left right ihl _ =>
      rcases hc with ⟨hleft, hright, hleftConj, hrightAtom⟩
      rcases List.mem_append.mp hpart with h | h
      · rcases ihl hleft hleftConj h with ⟨hlegible, hatom, hdepth⟩
        exact ⟨hlegible, hatom, by simp only [depth]; omega⟩
      · rw [List.mem_singleton] at h
        subst h
        exact ⟨hright, hrightAtom, by simp only [depth]; omega⟩
  | either left right _ _ => cases hconj
  | _ =>
      obtain rfl := List.mem_singleton.mp hpart
      exact ⟨hc, rfl, Nat.le_refl _⟩

/-- The parts of a legible alternative are legible conjunctions. -/
theorem of_mem_alternatives {c part : Condition} (hc : c.Legible)
    (hpart : part ∈ c.alternatives) :
    part.Legible ∧ part.isConjunction = true ∧ part.depth ≤ c.depth := by
  induction c with
  | either left right ihl _ =>
      rcases hc with ⟨hleft, hright, hrightConj⟩
      rcases List.mem_append.mp hpart with h | h
      · rcases ihl hleft h with ⟨hlegible, hconj, hdepth⟩
        exact ⟨hlegible, hconj, by simp only [depth]; omega⟩
      · rw [List.mem_singleton] at h
        subst h
        exact ⟨hright, hrightConj, by simp only [depth]; omega⟩
  | _ =>
      obtain rfl := List.mem_singleton.mp hpart
      exact ⟨hc, rfl, Nat.le_refl _⟩

end Condition

/-- Reading each of several tokens lists that are read as given conditions. -/
theorem mapM_tokens {read : List Token → Option Condition} {parts : List Condition}
    (h : ∀ part ∈ parts, read part.tokens = some part) :
    (parts.map Condition.tokens).mapM read = some parts := by
  induction parts with
  | nil => rfl
  | cons part parts ih =>
      have hrest := ih fun other hother => h other (List.mem_cons_of_mem part hother)
      rw [List.map_cons, List.mapM_cons, h part List.mem_cons_self, hrest]
      rfl

namespace Condition

theorem readConjunction_tokens {read : List Token → Option Condition} {c : Condition}
    (hc : c.Legible) (hconj : c.isConjunction = true)
    (hread : ∀ part ∈ c.conjuncts, read part.tokens = some part) :
    readConjunction read c.tokens = some c := by
  rw [readConjunction, (divides_conjuncts hc hconj).alone, mapM_tokens hread]
  exact joined_conjuncts c

/-- A legible condition is read as itself where its atoms are. -/
theorem readDisjunction_tokens {read : List Token → Option Condition} {c : Condition}
    (hc : c.Legible) (hread : ∀ part : Condition, part.Legible → part.isAtom = true →
      part.depth ≤ c.depth → read part.tokens = some part) :
    readDisjunction read c.tokens = some c := by
  have hparts : ∀ part ∈ c.alternatives, readConjunction read part.tokens = some part := by
    intro part hpart
    rcases of_mem_alternatives hc hpart with ⟨hlegible, hconj, hdepth⟩
    refine readConjunction_tokens hlegible hconj ?_
    intro atom hatom
    rcases of_mem_conjuncts hlegible hconj hatom with ⟨hlegible', hatom', hdepth'⟩
    exact hread atom hlegible' hatom' (by omega)
  rw [readDisjunction, (divides_alternatives hc).alone, mapM_tokens hparts]
  exact joined_alternatives c

/-- A legible atom is read as itself if its brackets are not nested too deep. -/
theorem readAtom_tokens {c : Condition} {bound : Nat} (hc : c.Legible) (hatom : c.isAtom = true)
    (hdepth : c.depth ≤ bound) : readAtom bound c.tokens = some c := by
  induction bound generalizing c with
  | zero => cases c <;> simp [depth, isAtom] at hdepth hatom
  | succ bound ih =>
      have hbody : ∀ body : Condition, body.Legible → body.depth ≤ bound →
          readDisjunction (readAtom bound) body.tokens = some body := by
        intro body hlegible hbound
        refine readDisjunction_tokens hlegible ?_
        intro part hpart hpartAtom hpartDepth
        exact ih hpart hpartAtom (by omega)
      cases c with
      | compare property comparison parameter =>
          simp [readAtom, readComparison_compare]
      | memberOf property parameters =>
          simp [readAtom, readComparison_memberOf property hc.2.2.1]
      | group body =>
          have hread := readGroup_group (hbody body hc (by simpa [depth] using hdepth))
          simp [readAtom, readComparison_group, hread]
      | both left right => cases hatom
      | either left right => cases hatom
      | everyNode node inner path label body =>
          have hread := readEveryNode_everyNode node inner path label
            (hbody body hc.2.2.2.2 (by simpa [depth] using hdepth))
          simp [readAtom, readComparison_everyNode, readGroup_everyNode, hread]

/-- A legible condition is read as itself. -/
theorem readCondition_tokens {c : Condition} (hc : c.Legible) :
    readCondition c.tokens = some c := by
  refine readDisjunction_tokens hc ?_
  intro part hpart hatom hdepth
  exact readAtom_tokens hpart hatom (Nat.le_trans hdepth c.depth_le_length)

end Condition

end Costar.Cypher
