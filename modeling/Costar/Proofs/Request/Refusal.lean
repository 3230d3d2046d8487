import Costar.Proofs.Filter.Refusal
import Costar.Proofs.Request.Kept

/-!
# Requests that are refused

A request that cannot be built is refused: for one of its ids, for the name of a category, or for
the first entry of a filter that cannot be read.  Only where that entry asks for a number that is too
large is the request neither built nor refused.

Main results:

- Definition `Selection.readEntries`: the entries that are read, in their order.
- Theorem `PathRequest.build_eq_error`: what a request fails by.
- Definition `PathRequest.Overflows`: the requests that a number is too large in.
- Theorem `PathRequest.settled_iff_not_overflows`: all others are built or refused.
- Theorem `PathRequest.oversized_not_refused`: a request that is not.
-/

namespace Costar

/-- Filters that are not given, or given by a mapping. -/
def Filters.ofMapping (top : Option (List (Text × Value))) : Filters :=
  .given ((top.map .map).getD .null)

/-! ## Entries in the order of reading -/

namespace Selection

variable {s : Selection} {top : List (Text × Value)} {f : Failure}

theorem isRefusal_of_add {name : Text} {filter : Value} (h : s.add name filter = .error f) :
    f.IsRefusal := by
  unfold add at h
  split at h
  · cases h
    exact Failure.isRefusal_unknownField ..
  · split at h
    · cases h
    · cases h
    · cases h
      exact Failure.isRefusal_invalidOperand ..

/-- Filters that cannot be sorted by category are refused. -/
theorem isRefusal_of_ofValue (h : ofValue (.map top) = .error f) : f.IsRefusal := by
  rcases Failure.foldlM_eq_error.mp h with ⟨_, _, _, _, -, -, hadd⟩
  exact isRefusal_of_add hadd

/-- The entries that are read of the given filters: those of the last mappings, one category behind
another. -/
def readEntries (top : List (Text × Value)) : List (Category × Text × Value) :=
  Category.all.flatMap fun c => (lastGiven top c).map fun e => (c, e)

/-- Reads one of these entries. -/
def readEntry (e : Category × Text × Value) : Except Failure Constraint :=
  Constraint.parse e.1 e.2.1 e.2.2

end Selection

namespace PathRequest

variable {node : String} {first second : Value} {s : Selection} {top : List (Text × Value)}
  {f : Failure}

/-! ## Requests that cannot be built -/

theorem checkId_eq_error {name : String} {v : Value} :
    checkId name v = .error f ↔ (∀ n, v ≠ .int n) ∧
      f = .invalidOperand Category.person.name name (.expected "int" v.kind) := by
  cases v <;> simp [checkId, eq_comm]

theorem isRefusal_of_checkId {name : String} {v : Value} (h : checkId name v = .error f) :
    f.IsRefusal := by
  rw [(checkId_eq_error.mp h).2]
  exact Failure.isRefusal_invalidOperand ..

/-- Filters fail to be compiled with the first of them that does. -/
theorem compileAll_eq_error {given : List (Category × Value)} :
    compileAll node given = .error f ↔
      (given.mapM fun e => Predicate.compile node e.1 e.2) = .error f := by
  unfold compileAll
  rw [Failure.bind_pure_eq_error]
  exact Failure.mapM_eq_error_congr fun e _ _ => Failure.bind_pure_eq_error

/-- Sorted filters fail to be compiled with the first entry of them that cannot be read. -/
theorem compileAll_given_eq_error (node : String) (h : Selection.ofValue (.map top) = .ok s) :
    compileAll node s.given = .error f ↔
      (Selection.readEntries top).mapM Selection.readEntry = .error f := by
  have hread : ∀ c, s.constraintsOf c =
      ((Selection.lastGiven top c).map fun e => (c, e)).mapM Selection.readEntry := by
    intro c
    rw [Selection.constraintsOf_of_ofValue h, List.mapM_map]
    rfl
  rw [compileAll_eq_error, Selection.given, Failure.mapM_filter_eq_error, List.mapM_map,
    Selection.readEntries, Failure.mapM_flatMap_eq_error]
  · refine Failure.mapM_eq_error_congr fun c _ e => ?_
    rw [Function.comp_apply, compile_get, Failure.map_eq_error, hread]
  · -- A category that nothing is given for does not fail.
    intro e he hgiven
    rcases List.mem_map.mp he with ⟨c, -, rfl⟩
    rw [compile_get, constraintsOf_of_not_given hgiven]
    exact ⟨_, rfl⟩

/-- Whatever the filters are, a request that cannot be built is refused, a number is too large, or
filters are no mapping. -/
theorem build_error_cases {filters : Filters} (h : build node first second filters = .error f) :
    f.IsRefusal ∨ f = .integerTooLarge ∨ f = .notAMapping := by
  have hentries : ∀ {v}, Predicate.entries v = .error f → f = .notAMapping := by
    intro v hv
    unfold Predicate.entries at hv
    split at hv
    · cases hv
    · split at hv <;> cases hv
      rfl
  rcases Failure.bind_eq_error.mp h with hfirst | ⟨m, -, h⟩
  · exact Or.inl (isRefusal_of_checkId hfirst)
  rcases Failure.bind_eq_error.mp h with hsecond | ⟨n, -, h⟩
  · exact Or.inl (isRefusal_of_checkId hsecond)
  rcases Failure.bind_eq_error.mp h with hsorted | ⟨s, -, h⟩
  · cases filters with
    | sorted s => cases hsorted
    | given v =>
        rcases Failure.bind_eq_error.mp hsorted with hv | ⟨top, -, hadded⟩
        · exact Or.inr (Or.inr (hentries hv))
        · rcases Failure.foldlM_eq_error.mp hadded with ⟨_, _, _, _, -, -, hadd⟩
          exact Or.inl (Selection.isRefusal_of_add hadd)
  rcases Failure.bind_eq_error.mp h with hcompile | ⟨predicates, -, h⟩
  · rcases Failure.mapM_eq_error.mp (compileAll_eq_error.mp hcompile) with ⟨_, e, _, -, -, he⟩
    rw [Predicate.compile_eq, Failure.map_eq_error] at he
    rcases Failure.bind_eq_error.mp he with hv | ⟨entries, -, hread⟩
    · exact Or.inr (Or.inr (hentries hv))
    · rcases Failure.mapM_eq_error.mp hread with ⟨_, _, _, -, -, hentry⟩
      exact (Constraint.parse_eq_error hentry).imp_right Or.inl
  · cases h

/-- A request fails by its first id, by its second, by the names of its categories, or with the
first entry that cannot be read. -/
theorem build_eq_error :
    build node first second (.given (.map top)) = .error f ↔
      checkId firstParameter first = .error f ∨ (∃ m, first = .int m) ∧
        (checkId secondParameter second = .error f ∨ (∃ n, second = .int n) ∧
          (Selection.ofValue (.map top) = .error f ∨
            (∃ s, Selection.ofValue (.map top) = .ok s) ∧
              (Selection.readEntries top).mapM Selection.readEntry = .error f)) := by
  simp only [build, Filters.selection, Failure.bind_eq_error, checkId_eq_ok, pure, Except.pure,
    reduceCtorEq, and_false, exists_false, or_false]
  constructor
  · rintro (hfirst | ⟨m, rfl, hsecond | ⟨n, rfl, hsorted | ⟨s, hs, hcompile⟩⟩⟩)
    · exact Or.inl hfirst
    · exact Or.inr ⟨⟨m, rfl⟩, Or.inl hsecond⟩
    · exact Or.inr ⟨⟨m, rfl⟩, Or.inr ⟨⟨n, rfl⟩, Or.inl hsorted⟩⟩
    · rw [compileAll_given_eq_error node hs] at hcompile
      exact Or.inr ⟨⟨m, rfl⟩, Or.inr ⟨⟨n, rfl⟩, Or.inr ⟨⟨s, hs⟩, hcompile⟩⟩⟩
  · rintro (hfirst | ⟨⟨m, rfl⟩, hsecond | ⟨⟨n, rfl⟩, hsorted | ⟨⟨s, hs⟩, hread⟩⟩⟩)
    · exact Or.inl hfirst
    · exact Or.inr ⟨m, rfl, Or.inl hsecond⟩
    · exact Or.inr ⟨m, rfl, Or.inr ⟨n, rfl, Or.inl hsorted⟩⟩
    · have hcompile := (compileAll_given_eq_error node hs).mpr hread
      exact Or.inr ⟨m, rfl, Or.inr ⟨n, rfl, Or.inr ⟨s, hs, hcompile⟩⟩⟩

/-! ## Numbers that are too large -/

/-- Whether a number is what is wrong with a request: ids and categories are as they should be, and
the first entry that cannot be read asks for one that is too large. -/
structure Overflows (first second : Value) (top : List (Text × Value)) : Prop where
  firstId : ∃ m, first = .int m
  secondId : ∃ n, second = .int n
  sorted : ∃ s, Selection.ofValue (.map top) = .ok s
  entry : ∃ before e after, Selection.readEntries top = before ++ e :: after ∧
    (∀ b ∈ before, ∃ k, Selection.readEntry b = .ok k) ∧ Constraint.Overflows e.1 e.2.1 e.2.2

/-- A request that cannot be built is refused, or a number is too large. -/
theorem isRefusal_or_of_build (h : build node first second (.given (.map top)) = .error f) :
    f.IsRefusal ∨ f = .integerTooLarge := by
  rcases build_eq_error.mp h with hfirst | ⟨-, hsecond | ⟨-, hsorted | ⟨-, hread⟩⟩⟩
  · exact Or.inl (isRefusal_of_checkId hfirst)
  · exact Or.inl (isRefusal_of_checkId hsecond)
  · exact Or.inl (Selection.isRefusal_of_ofValue hsorted)
  · rcases Failure.mapM_eq_error.mp hread with ⟨_, _, _, -, -, hentry⟩
    exact Constraint.parse_eq_error hentry

/-- A number is too large in the requests that overflow. -/
theorem build_eq_integerTooLarge (node : String) :
    build node first second (.given (.map top)) = .error .integerTooLarge ↔
      Overflows first second top := by
  rw [build_eq_error]
  constructor
  · rintro (hfirst | ⟨hm, hsecond | ⟨hn, hsorted | ⟨hs, hread⟩⟩⟩)
    · exact absurd (isRefusal_of_checkId hfirst) Failure.not_isRefusal_integerTooLarge
    · exact absurd (isRefusal_of_checkId hsecond) Failure.not_isRefusal_integerTooLarge
    · exact absurd (Selection.isRefusal_of_ofValue hsorted) Failure.not_isRefusal_integerTooLarge
    · rcases Failure.mapM_eq_error.mp hread with ⟨before, e, after, hl, hbefore, hentry⟩
      exact ⟨hm, hn, hs, before, e, after, hl, hbefore,
        Constraint.parse_eq_integerTooLarge.mp hentry⟩
  · rintro ⟨hm, hn, hs, before, e, after, hl, hbefore, hentry⟩
    refine Or.inr ⟨hm, Or.inr ⟨hn, Or.inr ⟨hs, ?_⟩⟩⟩
    exact Failure.mapM_eq_error.mpr ⟨before, e, after, hl, hbefore,
      Constraint.parse_eq_integerTooLarge.mpr hentry⟩

/-- A request is built or refused unless it overflows, and those that overflow fail by a number that
is too large. -/
theorem settled_iff_not_overflows (node : String) (first second : Value)
    (top : Option (List (Text × Value))) :
    (((∃ request, build node first second (.ofMapping top) = .ok request) ∨
        ∃ f, build node first second (.ofMapping top) = .error f ∧ f.IsRefusal) ↔
          ¬ Overflows first second (top.getD [])) ∧
      (build node first second (.ofMapping top) = .error .integerTooLarge ↔
        Overflows first second (top.getD [])) := by
  have hbuild : build node first second (.ofMapping top) =
      build node first second (.given (.map (top.getD []))) := by
    cases top <;> rfl
  rw [hbuild, ← build_eq_integerTooLarge node]
  refine ⟨?_, Iff.rfl⟩
  cases hresult : build node first second (.given (.map (top.getD []))) with
  | ok request => simp
  | error f =>
      simp only [reduceCtorEq, exists_false, false_or, Except.error.injEq, exists_eq_left']
      constructor
      · rintro hrefusal rfl
        exact Failure.not_isRefusal_integerTooLarge hrefusal
      · exact (isRefusal_or_of_build hresult).resolve_right

/-- Filters that ask people for a popularity that no binary64 number is near. -/
def oversized : List (Text × Value) :=
  [("person", .map [("popularity", .int (2 ^ 1024))])]

/-- The request for `oversized` is neither built nor refused. -/
theorem oversized_not_refused :
    build nodeVariable (.int 1) (.int 2) (.ofMapping (some oversized)) = .error .integerTooLarge ∧
      ¬ Failure.integerTooLarge.IsRefusal := by
  refine ⟨(build_eq_integerTooLarge nodeVariable).mpr ?_, Failure.not_isRefusal_integerTooLarge⟩
  refine ⟨⟨1, rfl⟩, ⟨2, rfl⟩, ⟨_, rfl⟩, ?_⟩
  refine ⟨[], (.person, "popularity", .int (2 ^ 1024)), [], rfl, ?_, ?_⟩
  · intro b hb
    cases hb
  · refine ⟨⟨"popularity", .compare .eq⟩, rfl, rfl, 2 ^ 1024, rfl, ?_⟩
    have habs : ∀ k, ((2 : Int) ^ k).natAbs = 2 ^ k := fun k => Int.natAbs_pow 2 k
    rw [habs, Binary64.overflowBound]
    exact Nat.sub_le ..

end PathRequest

end Costar
