import Costar.Filter.Key
import Costar.Proofs.Failure

/-!
# The grammar of filter keys

A filter key is a declared field, alone or, where the field's type is ordered, with the suffix of an
operator.  No declared field ends like a suffix and no suffix ends in another, so a key can be taken
apart in one way only.  The order in which the suffixes are tried does not matter therefore.

Main results:

- Structure `FilterKey.Spells`: the grammar.
- Theorem `FilterKey.eq_of_text_eq`: a key spells at most one field with one operator.
- Theorem `FilterKey.parse_eq_ok`: reading accepts what the grammar does.
- Theorem `FilterKey.parse_eq_error`: what other keys are refused for.
- Theorem `FilterKey.parseTrying_eq`: the suffixes may be tried in any order.
- Theorem `FilterKey.read_by_grammar`: all of it together, for categories given by name.
-/

namespace Costar

/-! ## Fields and suffixes -/

namespace Category

variable {c : Category} {field : String} {t : FieldType}

/-- Whether a category declares a field. -/
def Declares (c : Category) (field : String) : Prop :=
  ∃ t, c.fieldType? field = some t

theorem mem_fields (h : c.fieldType? field = some t) : (field, t) ∈ c.fields := by
  rcases List.lookup_eq_some_iff.mp h with ⟨before, after, hfields, -⟩
  rw [hfields]
  simp

theorem name_of_ofName? {name : Text} (h : ofName? name = some c) : c.name = name := by
  simpa using List.find?_some h

theorem named_eq_ok {name : Text} :
    named name = .ok c ↔ ofName? name = some c := by
  unfold named
  cases ofName? name <;> simp

theorem named_eq_error {name : Text} {f : Failure} :
    named name = .error f ↔ ofName? name = none ∧
      f = .unknownField name "*" (.undeclaredCategory name) := by
  unfold named
  cases ofName? name <;> simp [eq_comm]

/-- A field is declared once, with the type that is found for it. -/
theorem fieldType?_of_mem (h : (field, t) ∈ c.fields) : c.fieldType? field = some t := by
  have hall : ∀ f ∈ c.fields, c.fieldType? f.1 = some f.2 := by
    cases c <;> decide
  exact hall (field, t) h

/-- No declared field ends like the suffix of an operator. -/
theorem not_suffix_of_declares (h : c.Declares field) {op : Operator}
    (hop : op ∈ Operator.suffixed) : ¬ op.suffix.toList <:+ field.toList := by
  have hall : ∀ f ∈ c.fields, ∀ op ∈ Operator.suffixed, ¬ op.suffix.toList <:+ f.1.toList := by
    cases c <;> decide
  rcases h with ⟨t, ht⟩
  exact hall (field, t) (mem_fields ht) op hop

end Category

namespace Operator

theorem eq_or_mem_suffixed (op : Operator) : op = .compare .eq ∨ op ∈ suffixed := by
  rcases op with (_ | _ | _ | _ | _) | _ <;> decide

/-- No suffix ends in the suffix of another operator. -/
theorem eq_of_suffix {op other : Operator} (hop : op ∈ suffixed) (hother : other ∈ suffixed)
    (h : op.suffix.toList <:+ other.suffix.toList) : op = other := by
  have hall : ∀ op ∈ suffixed, ∀ other ∈ suffixed,
      op.suffix.toList <:+ other.suffix.toList → op = other := by decide
  exact hall op hop other hother h

end Operator

namespace FilterKey

variable {c : Category} {key : Text} {k l : FilterKey}

/-! ## Grammar -/

/-- Whether a key of a category spells a field with an operator: the field is declared, and it
supports other operators than equality if its type is ordered. -/
structure Spells (c : Category) (key : Text) (k : FilterKey) : Prop where
  spelled : k.text = key
  field : ∃ t, c.fieldType? k.field = some t ∧ (k.operator = .compare .eq ∨ t.isOrdered = true)

/-- What a key is refused for: it is a declared field with a suffix that the field's type does not
support, or no declared field with any suffix. -/
def Refused (c : Category) (key : Text) : FieldProblem → Prop
  | .unordered field op => (mk field op).text = key ∧ op ∈ Operator.suffixed ∧
    ∃ t, c.fieldType? field = some t ∧ t.isOrdered = false
  | .undeclared => ∀ k : FilterKey, c.Declares k.field → k.text ≠ key
  | .undeclaredCategory _ => False

/-- A declared field with a suffix is spelled by no other field and operator. -/
theorem eq_of_text_eq (hk : c.Declares k.field) (hl : c.Declares l.field) (h : k.text = l.text) :
    k = l := by
  rcases k with ⟨field, op⟩
  rcases l with ⟨field', op'⟩
  have hchars : field.toList ++ op.suffix.toList = field'.toList ++ op'.suffix.toList := by
    rw [← String.toList_append, ← String.toList_append]
    exact congrArg String.toList h
  rcases op.eq_or_mem_suffixed with rfl | hop <;> rcases op'.eq_or_mem_suffixed with rfl | hop'
  · simpa [text, Operator.suffix] using h
  · -- A field that is a key by itself does not end like another field with its suffix.
    have hsuffix : op'.suffix.toList <:+ field.toList :=
      ⟨field'.toList, by simpa [Operator.suffix] using hchars.symm⟩
    exact absurd hsuffix (Category.not_suffix_of_declares hk hop')
  · have hsuffix : op.suffix.toList <:+ field'.toList :=
      ⟨field.toList, by simpa [Operator.suffix] using hchars⟩
    exact absurd hsuffix (Category.not_suffix_of_declares hl hop)
  · have heq : op = op' := by
      have hends : op.suffix.toList <:+ field'.toList ++ op'.suffix.toList :=
        ⟨field.toList, hchars⟩
      rcases List.suffix_or_suffix_of_suffix hends (List.suffix_append _ _) with hin | hin
      · exact Operator.eq_of_suffix hop hop' hin
      · exact (Operator.eq_of_suffix hop' hop hin).symm
    subst heq
    have hfield := String.toList_inj.mp (List.append_cancel_right hchars)
    rw [hfield]

/-- A key spells one declared field with one operator. -/
theorem eq_of_spelled (hk : c.Declares k.field) (hl : c.Declares l.field)
    (h : (k.text : Text) = key) (h' : (l.text : Text) = key) : k = l :=
  eq_of_text_eq hk hl (Text.whole.inj (h.trans h'.symm))

/-! ## Suffixes in any order -/

/-- The declared field that a key spells together with the suffix of an operator. -/
theorem reading?_eq_some {op o : Operator} {field : String} {t : FieldType} :
    reading? c key op = some (field, t, o) ↔
      o = op ∧ c.fieldType? field = some t ∧ (mk field op).text = key := by
  unfold reading?
  rw [Option.map_eq_some_iff]
  constructor
  · rintro ⟨f, hf, heq⟩
    cases heq
    exact ⟨rfl, Category.fieldType?_of_mem (List.mem_of_find?_eq_some hf),
      by simpa using List.find?_some hf⟩
  · rintro ⟨rfl, ht, hkey⟩
    -- The field that is found spells the same key, so it is this one.
    cases hfound : c.fields.find? fun f => (mk f.1 o).text == key with
    | none =>
        have hnone := List.find?_eq_none.mp hfound (field, t) (Category.mem_fields ht)
        simp [hkey] at hnone
    | some f =>
        have hf := Category.fieldType?_of_mem (List.mem_of_find?_eq_some hfound)
        have hkey' : (mk f.1 o).text = key := by simpa using List.find?_some hfound
        have hsame : mk f.1 o = ⟨field, o⟩ :=
          eq_of_spelled ⟨_, hf⟩ ⟨t, ht⟩ hkey' hkey
        cases hsame
        rw [ht] at hf
        cases hf
        exact ⟨_, rfl, rfl⟩

/-- The first reading in any order of the operators is the only one. -/
theorem findSome?_reading? {ops : List Operator} {field : String} {t : FieldType} {op : Operator} :
    ops.findSome? (reading? c key) = some (field, t, op) ↔
      op ∈ ops ∧ c.fieldType? field = some t ∧ (mk field op).text = key := by
  constructor
  · intro h
    rcases List.exists_of_findSome?_eq_some h with ⟨tried, htried, hreading⟩
    rcases reading?_eq_some.mp hreading with ⟨rfl, ht, hkey⟩
    exact ⟨htried, ht, hkey⟩
  · rintro ⟨hop, ht, hkey⟩
    cases hfound : ops.findSome? (reading? c key) with
    | none =>
        have hnone := List.findSome?_eq_none_iff.mp hfound op hop
        rw [reading?_eq_some.mpr ⟨rfl, ht, hkey⟩] at hnone
        cases hnone
    | some found =>
        rcases found with ⟨field', t', op'⟩
        rcases List.exists_of_findSome?_eq_some hfound with ⟨tried, -, hreading⟩
        rcases reading?_eq_some.mp hreading with ⟨rfl, ht', hkey'⟩
        have hsame : mk field' op' = ⟨field, op⟩ :=
          eq_of_spelled ⟨t', ht'⟩ ⟨t, ht⟩ hkey' hkey
        cases hsame
        rw [ht] at ht'
        cases ht'
        rfl

/-- There is no reading if the key is no declared field with the suffix of one of the operators. -/
theorem not_suffixed_of_findSome? {ops : List Operator}
    (h : ops.findSome? (reading? c key) = none) :
    ∀ op ∈ ops, ∀ field, c.Declares field → ((mk field op).text : Text) ≠ key := by
  rintro op hop field ⟨t, ht⟩ hkey
  rw [findSome?_reading?.mpr ⟨hop, ht, hkey⟩] at h
  cases h

/-- Reads a key of a category as `parse` does, with the suffixes of the operators tried in a given
order. -/
def parseTrying (ops : List Operator) (c : Category) (key : Text) : Except Failure FilterKey :=
  match ops.findSome? (reading? c key) with
  | some (field, type, op) =>
    if type.isOrdered then .ok ⟨field, op⟩
    else .error (.unknownField c.name key (.unordered field op))
  | none =>
    match reading? c key (.compare .eq) with
    | some (field, _, op) => .ok ⟨field, op⟩
    | none => .error (.unknownField c.name key .undeclared)

theorem parseTrying_suffixed (c : Category) (key : Text) :
    parseTrying Operator.suffixed c key = parse c key :=
  rfl

/-- The suffixes may be tried in any order. -/
theorem parseTrying_eq {ops : List Operator} (h : ops.Perm Operator.suffixed) (c : Category)
    (key : Text) : parseTrying ops c key = parse c key := by
  have hsame : ops.findSome? (reading? c key) =
      Operator.suffixed.findSome? (reading? c key) := by
    apply Option.ext
    rintro ⟨field, t, op⟩
    rw [findSome?_reading?, findSome?_reading?, h.mem_iff]
  rw [← parseTrying_suffixed, parseTrying, parseTrying, hsame]

/-! ## Reading -/

/-- A declared field with a suffix spells nothing else, and nothing at all if its type is not
ordered. -/
theorem spells_iff_of_suffixed {field : String} {t : FieldType} {op : Operator}
    (hop : op ∈ Operator.suffixed) (ht : c.fieldType? field = some t)
    (hkey : (mk field op).text = key) :
    Spells c key k ↔ t.isOrdered = true ∧ k = ⟨field, op⟩ := by
  constructor
  · rintro ⟨htext, t', ht', hsupports⟩
    obtain rfl : k = ⟨field, op⟩ := eq_of_spelled ⟨t', ht'⟩ ⟨t, ht⟩ htext hkey
    rcases hsupports with hequal | hordered
    · cases hequal
      exact absurd hop (by decide)
    · rw [ht] at ht'
      cases ht'
      exact ⟨hordered, rfl⟩
  · rintro ⟨hordered, rfl⟩
    exact ⟨hkey, t, ht, Or.inr hordered⟩

/-- A key that is no declared field with a suffix spells a field that it is itself. -/
theorem spells_iff_of_not_suffixed (h : ∀ op ∈ Operator.suffixed, ∀ field, c.Declares field →
    ((mk field op).text : Text) ≠ key) :
    Spells c key k ↔ ∃ t, reading? c key (.compare .eq) = some (k.field, t, k.operator) := by
  simp only [reading?_eq_some]
  constructor
  · rcases k with ⟨field, op⟩
    rintro ⟨htext, t, ht, -⟩
    rcases op.eq_or_mem_suffixed with rfl | hop
    · exact ⟨t, rfl, ht, htext⟩
    · exact absurd htext (h op hop field ⟨t, ht⟩)
  · rcases k with ⟨field, op⟩
    rintro ⟨t, rfl, ht, htext⟩
    exact ⟨htext, t, ht, Or.inl rfl⟩

/-- Reading accepts what the grammar does. -/
theorem parse_eq_ok : parse c key = .ok k ↔ Spells c key k := by
  unfold parse
  cases hfound : Operator.suffixed.findSome? (reading? c key) with
  | some found =>
      rcases found with ⟨field, t, op⟩
      rcases findSome?_reading?.mp hfound with ⟨hop, ht, hkey⟩
      rw [spells_iff_of_suffixed hop ht hkey]
      dsimp only
      split
      · rename_i hordered
        simp only [Except.ok.injEq, hordered, true_and]
        exact eq_comm
      · rename_i hunordered
        simp [hunordered]
  | none =>
      rw [spells_iff_of_not_suffixed (not_suffixed_of_findSome? hfound)]
      cases reading? c key (.compare .eq) with
      | none => simp
      | some found =>
          rcases found with ⟨field, t, op⟩
          rcases k with ⟨field', op'⟩
          simp

/-! ## Refusals -/

/-- A key that is refused for its suffix is spelled by a field that is declared. -/
theorem Refused.spelled {field : String} {op : Operator}
    (h : Refused c key (.unordered field op)) :
    c.Declares field ∧ (mk field op).text = key := by
  rcases h with ⟨hkey, -, t, ht, -⟩
  exact ⟨⟨t, ht⟩, hkey⟩

/-- A key is refused for one reason. -/
theorem Refused.unique {problem other : FieldProblem} (h : Refused c key problem)
    (h' : Refused c key other) : problem = other := by
  cases problem with
  | undeclaredCategory name => cases h
  | undeclared =>
      cases other with
      | undeclaredCategory name => cases h'
      | undeclared => rfl
      | unordered field op => exact absurd h'.spelled.2 (h _ h'.spelled.1)
  | unordered field op =>
      cases other with
      | undeclaredCategory name => cases h'
      | undeclared => exact absurd h.spelled.2 (h' _ h.spelled.1)
      | unordered field' op' =>
          have hsame : mk field op = ⟨field', op'⟩ :=
            eq_of_spelled h.spelled.1 h'.spelled.1 h.spelled.2 h'.spelled.2
          cases hsame
          rfl

/-- What is refused is not in the grammar. -/
theorem Refused.not_spells {problem : FieldProblem} (h : Refused c key problem) (k : FilterKey) :
    ¬ Spells c key k := by
  rintro ⟨htext, t, ht, hsupports⟩
  cases problem with
  | undeclaredCategory name => exact h
  | undeclared => exact h k ⟨t, ht⟩ htext
  | unordered field op =>
      have hsame : k = ⟨field, op⟩ :=
        eq_of_spelled ⟨t, ht⟩ h.spelled.1 htext h.spelled.2
      subst hsame
      rcases h with ⟨-, hop, t', ht', hunordered⟩
      rcases hsupports with hequal | hordered
      · cases hequal
        exact absurd hop (by decide)
      · rw [ht] at ht'
        cases ht'
        rw [hordered] at hunordered
        cases hunordered

theorem refused_of_parse {f : Failure} (h : parse c key = .error f) :
    ∃ problem, Refused c key problem ∧ f = .unknownField c.name key problem := by
  unfold parse at h
  cases hfound : Operator.suffixed.findSome? (reading? c key) with
  | some found =>
      rcases found with ⟨field, t, op⟩
      rcases findSome?_reading?.mp hfound with ⟨hop, ht, hkey⟩
      rw [hfound] at h
      dsimp only at h
      split at h
      · cases h
      · rename_i hunordered
        cases h
        exact ⟨.unordered field op, ⟨hkey, hop, t, ht, by simpa using hunordered⟩, rfl⟩
  | none =>
      rw [hfound] at h
      dsimp only at h
      split at h
      · cases h
      · rename_i hnone
        cases h
        refine ⟨.undeclared, ?_, rfl⟩
        rintro ⟨field, op⟩ ⟨t, ht⟩ htext
        rcases op.eq_or_mem_suffixed with rfl | hop
        · rw [reading?_eq_some.mpr ⟨rfl, ht, htext⟩] at hnone
          cases hnone
        · exact not_suffixed_of_findSome? hfound op hop field ⟨t, ht⟩ htext

/-- What a key that cannot be read is refused for. -/
theorem parse_eq_error {f : Failure} :
    parse c key = .error f ↔
      ∃ problem, Refused c key problem ∧ f = .unknownField c.name key problem := by
  constructor
  · exact refused_of_parse
  · rintro ⟨problem, hrefused, rfl⟩
    cases hparse : parse c key with
    | ok k => exact absurd (parse_eq_ok.mp hparse) (hrefused.not_spells k)
    | error f =>
        rcases refused_of_parse hparse with ⟨other, hother, rfl⟩
        rw [hrefused.unique hother]

/-- Of two suffixes only the last is taken off, and what is left is no field. -/
example : parse .movie "budget_GT_GTE" =
    .error (.unknownField "movie" "budget_GT_GTE" .undeclared) :=
  rfl

/-! ## Categories by name -/

/-- Reads a key of a category given by name, with the suffixes tried in a given order. -/
def parseNamedTrying (ops : List Operator) (category key : Text) : Except Failure FilterKey := do
  parseTrying ops (← Category.named category) key

/-- Keys are read by their grammar.  A field and an operator are read from the keys that they spell
in a declared category; other keys, and all keys of other categories, are refused as unknown fields;
a key spells at most one declared field with one operator; and the suffixes may be tried in any
order. -/
theorem read_by_grammar (category key : Text) :
    (∀ k, parseNamed category key = .ok k ↔
      ∃ c, Category.ofName? category = some c ∧ Spells c key k) ∧
    (∀ f, parseNamed category key = .error f ↔
      (Category.ofName? category = none ∧
        f = .unknownField category "*" (.undeclaredCategory category)) ∨
      ∃ c problem, Category.ofName? category = some c ∧ Refused c key problem ∧
        f = .unknownField category key problem) ∧
    (∀ (c : Category) (k l : FilterKey), c.Declares k.field → c.Declares l.field →
      k.text = key → l.text = key → k = l) ∧
    ∀ ops : List Operator, ops.Perm Operator.suffixed →
      parseNamedTrying ops category key = parseNamed category key := by
  refine ⟨?_, ?_, ?_, ?_⟩
  · intro k
    unfold parseNamed
    simp only [Failure.bind_eq_ok, Category.named_eq_ok, parse_eq_ok]
  · intro f
    unfold parseNamed
    simp only [Failure.bind_eq_error, Category.named_eq_ok, Category.named_eq_error,
      parse_eq_error]
    refine or_congr_right (exists_congr fun c => ?_)
    rw [← exists_and_left]
    refine exists_congr fun problem => and_congr_right fun hc => ?_
    rw [Category.name_of_ofName? hc]
  · intro c k l hk hl htext htext'
    exact eq_of_spelled hk hl htext htext'
  · intro ops hops
    unfold parseNamedTrying parseNamed
    simp only [parseTrying_eq hops]

/-- The suffix of a key is read as a whole, also where the shorter suffix in it is tried first, and
the key spells nothing else. -/
theorem read_budget_bound :
    parseNamed "movie" "budget_GTE" = .ok ⟨"budget", .compare .ge⟩ ∧
      Operator.suffixed.reverse.Perm Operator.suffixed ∧
      parseNamedTrying Operator.suffixed.reverse "movie" "budget_GTE" =
        parseNamed "movie" "budget_GTE" ∧
      ∀ k : FilterKey, Category.movie.Declares k.field → k.text = "budget_GTE" →
        k = ⟨"budget", .compare .ge⟩ := by
  rcases read_by_grammar "movie" "budget_GTE" with ⟨haccepts, -, hunique, horder⟩
  have hbudget : Category.movie.fieldType? "budget" = some .int := by decide
  refine ⟨?_, List.reverse_perm _, horder _ (List.reverse_perm _), ?_⟩
  · exact (haccepts _).mpr ⟨.movie, by decide, by decide, .int, hbudget, Or.inr rfl⟩
  · intro k hk htext
    exact hunique .movie k ⟨"budget", .compare .ge⟩ hk ⟨.int, hbudget⟩
      (congrArg Text.whole htext) rfl

end FilterKey

end Costar
