import Costar.Proofs.Request.Refusal
import Costar.Proofs.Request.Spelling

/-!
# Which failure comes first

A request has to meet a number of requirements: its ids are whole numbers, its filters are mappings
or nulls under names of categories, and the entries of the mappings that count can be read.  It is
built if it meets all of them.  Otherwise it fails by the first one that it does not meet, and
nothing behind that one matters.

Main results:

- Definition `PathRequest.Requirement`: one requirement, with the only failure by which it can fail.
- Definition `PathRequest.requirements`: all of them, in the order in which they are checked.
- Theorem `PathRequest.forall_met_iff`: either all requirements are met or one of them is the first
  to fail.
- Theorem `PathRequest.fails_by_first`: which requests are built, and by what the others fail.
-/

namespace Costar

/-! ## Names and entries of filters -/

theorem Category.ofFilterName?_eq_none {name : Text} :
    ofFilterName? name = none ↔ ∀ c : Category, name ∉ c.filterNames := by
  unfold ofFilterName?
  rw [List.find?_eq_none]
  constructor
  · intro h c hname
    exact h c c.mem_all (List.contains_iff_mem.mpr hname)
  · intro h c _ hname
    exact h c (List.contains_iff_mem.mp hname)

theorem Category.exists_ofFilterName? {name : Text} :
    (∃ c, ofFilterName? name = some c) ↔ ∃ c : Category, name ∈ c.filterNames := by
  rw [← Option.ne_none_iff_exists', ne_eq, ofFilterName?_eq_none]
  simp only [not_forall, not_not]

/-- The entries that are read are those of the last mappings for the categories. -/
theorem Selection.forall_mem_readEntries {top : List (Text × Value)}
    {p : Category × Text × Value → Prop} :
    (∀ e ∈ readEntries top, p e) ↔ ∀ c, ∀ e ∈ lastGiven top c, p (c, e) := by
  simp only [readEntries, List.forall_mem_flatMap, List.forall_mem_map, Category.mem_all,
    forall_const]

namespace PathRequest

/-! ## Requirements -/

/-- Something that is required of a request. -/
inductive Requirement where
  /-- An id is a whole number. -/
  | id (parameter : String) (v : Value)
  /-- A filter is a mapping or null, under a name for the filter of a category. -/
  | filter (name : Text) (v : Value)
  /-- An entry of the filter of a category can be read. -/
  | entry (c : Category) (key : Text) (v : Value)

namespace Requirement

/-- Whether a requirement is met. -/
def Met : Requirement → Prop
  | .id _ v => ∃ n, v = .int n
  | .filter name v =>
    (∃ c : Category, name ∈ c.filterNames) ∧ (v = .null ∨ ∃ entries, v = .map entries)
  | .entry c key v => ∃ k, Constraint.parse c key v = .ok k

/-- The failure by which a requirement fails.  A filter under an unknown name fails by its name,
whatever it is. -/
inductive FailsBy : Requirement → Failure → Prop
  | id {parameter : String} {v : Value} (h : ∀ n, v ≠ .int n) :
      FailsBy (.id parameter v) (.invalidOperand "person" parameter (.expected "int" v.kind))
  | unknownName {name : Text} {v : Value} (h : ∀ c : Category, name ∉ c.filterNames) :
      FailsBy (.filter name v) (.unknownField "filters" name (.undeclaredCategory name))
  | notMapping {name : Text} {c : Category} {v : Value} (hname : name ∈ c.filterNames)
      (hnull : v ≠ .null) (hmap : ∀ entries, v ≠ .map entries) :
      FailsBy (.filter name v) (.invalidOperand "filters" name (.expected "a mapping" v.kind))
  | entry {c : Category} {key : Text} {v : Value} {f : Failure}
      (h : Constraint.parse c key v = .error f) : FailsBy (.entry c key v) f

variable {f : Failure}

theorem failsBy_id {parameter : String} {v : Value} :
    (Requirement.id parameter v).FailsBy f ↔ checkId parameter v = .error f := by
  rw [checkId_eq_error]
  constructor
  · rintro ⟨h⟩
    exact ⟨h, rfl⟩
  · rintro ⟨h, rfl⟩
    exact .id h

theorem met_filter {s : Selection} {name : Text} {v : Value} :
    (Requirement.filter name v).Met ↔ ∃ t, s.add name v = .ok t := by
  rw [Selection.exists_add (e := (name, v)), Selection.Accepted, Category.exists_ofFilterName?]
  rfl

theorem failsBy_filter {s : Selection} {name : Text} {v : Value} :
    (Requirement.filter name v).FailsBy f ↔ s.add name v = .error f := by
  unfold Selection.add
  constructor
  · intro h
    cases h with
    | unknownName h => rw [Category.ofFilterName?_eq_none.mpr h]
    | notMapping hname hnull hmap =>
        obtain ⟨c, hc⟩ := Category.exists_ofFilterName?.mpr ⟨_, hname⟩
        rw [hc]
        cases v with
        | null => exact absurd rfl hnull
        | map entries => exact absurd rfl (hmap entries)
        | _ => rfl
  · intro h
    split at h
    · rename_i hnone
      cases h
      exact .unknownName (Category.ofFilterName?_eq_none.mp hnone)
    · rename_i c hc
      obtain ⟨d, hd⟩ := Category.exists_ofFilterName?.mp ⟨c, hc⟩
      split at h
      · cases h
      · cases h
      · rename_i hnull hmap
        cases h
        exact .notMapping hd hnull hmap

theorem failsBy_entry {e : Category × Text × Value} :
    (Requirement.entry e.1 e.2.1 e.2.2).FailsBy f ↔ Selection.readEntry e = .error f := by
  constructor
  · intro h
    cases h with
    | entry h => exact h
  · exact .entry

/-- A requirement is met if there is nothing by which it fails. -/
theorem met_iff (q : Requirement) : q.Met ↔ ∀ f, ¬ q.FailsBy f := by
  cases q with
  | id parameter v =>
      simp only [failsBy_id, ← ne_eq, ← Failure.exists_eq_ok_iff, checkId_eq_ok]
      rfl
  | filter name v =>
      simp only [failsBy_filter (s := {}), ← ne_eq, ← Failure.exists_eq_ok_iff]
      exact met_filter
  | entry c key v =>
      simp only [failsBy_entry (e := (c, key, v)), ← ne_eq, ← Failure.exists_eq_ok_iff]
      rfl

end Requirement

/-! ## The first failure -/

/-- Whether the first of some requirements that is not met fails by a failure. -/
def FirstFailure (requirements : List Requirement) (f : Failure) : Prop :=
  ∃ before q after, requirements = before ++ q :: after ∧ (∀ p ∈ before, p.Met) ∧ q.FailsBy f

variable {first second : Value} {top : List (Text × Value)}
  {q : Requirement} {qs rs : List Requirement} {f : Failure}

theorem not_firstFailure_nil : ¬ FirstFailure [] f := by
  rintro ⟨before, q, after, h, -, -⟩
  exact List.append_ne_nil_of_right_ne_nil _ (List.cons_ne_nil q after) h.symm

theorem firstFailure_cons : FirstFailure (q :: qs) f ↔ q.FailsBy f ∨ q.Met ∧ FirstFailure qs f :=
  Failure.exists_first_cons

theorem firstFailure_append :
    FirstFailure (qs ++ rs) f ↔ FirstFailure qs f ∨ (∀ q ∈ qs, q.Met) ∧ FirstFailure rs f := by
  induction qs with
  | nil => simp [not_firstFailure_nil]
  | cons q qs ih =>
      rw [List.cons_append, firstFailure_cons, firstFailure_cons, ih, List.forall_mem_cons]
      tauto

/-- Requirements are all met if none of them is the first to fail. -/
theorem forall_met_iff : (∀ q ∈ qs, q.Met) ↔ ∀ f, ¬ FirstFailure qs f := by
  induction qs with
  | nil => exact iff_of_true nofun fun f => not_firstFailure_nil
  | cons q qs ih =>
      rw [List.forall_mem_cons, ih]
      simp only [firstFailure_cons, not_or, not_and, forall_and, ← q.met_iff]
      constructor
      · rintro ⟨hq, hqs⟩
        exact ⟨hq, fun f _ => hqs f⟩
      · rintro ⟨hq, hqs⟩
        exact ⟨hq, fun f => hqs f hq⟩

/-- Filters fail to be sorted by category by the first of them that is not accepted. -/
theorem firstFailure_filters :
    FirstFailure (top.map fun e => .filter e.1 e.2) f ↔
      Selection.ofValue (.map top) = .error f := by
  change _ ↔ top.foldlM (fun s e => s.add e.1 e.2) ({} : Selection) = .error f
  generalize ({} : Selection) = start
  induction top generalizing start with
  | nil =>
      refine iff_of_false not_firstFailure_nil ?_
      intro h
      cases h
  | cons e rest ih =>
      rw [List.map_cons, firstFailure_cons, List.foldlM_cons, Failure.bind_eq_error,
        Requirement.failsBy_filter (s := start), Requirement.met_filter (s := start)]
      -- Whether a filter is accepted does not depend on those before it.
      constructor
      · rintro (he | ⟨⟨t, ht⟩, hrest⟩)
        · exact Or.inl he
        · exact Or.inr ⟨t, ht, (ih t).mp hrest⟩
      · rintro (he | ⟨t, ht, hrest⟩)
        · exact Or.inl he
        · exact Or.inr ⟨⟨t, ht⟩, (ih t).mpr hrest⟩

/-- Entries fail to be read by the first of them that cannot be read. -/
theorem firstFailure_entries {entries : List (Category × Text × Value)} :
    FirstFailure (entries.map fun e => .entry e.1 e.2.1 e.2.2) f ↔
      entries.mapM Selection.readEntry = .error f := by
  induction entries with
  | nil =>
      refine iff_of_false not_firstFailure_nil ?_
      intro h
      cases h
  | cons e rest ih =>
      rw [List.map_cons, firstFailure_cons, Failure.mapM_cons_eq_error, ih,
        Requirement.failsBy_entry]
      rfl

/-! ## Requests -/

/-- What is required of a request, in the order in which it is checked: the two ids, the filters in
the order in which they are given, and the entries of those filters that count, one category behind
another. -/
def requirements (first second : Value) (top : List (Text × Value)) : List Requirement :=
  .id firstParameter first :: .id secondParameter second ::
    ((top.map fun e => .filter e.1 e.2) ++
      (Selection.readEntries top).map fun e => .entry e.1 e.2.1 e.2.2)

theorem build_eq_error_iff_firstFailure (node : String) :
    build node first second (.given (.map top)) = .error f ↔
      FirstFailure (requirements first second top) f := by
  have hfilters : (∃ s, Selection.ofValue (.map top) = .ok s) ↔
      ∀ q ∈ top.map fun e => Requirement.filter e.1 e.2, q.Met := by
    rw [forall_met_iff, Failure.exists_eq_ok_iff]
    simp only [firstFailure_filters, ne_eq]
  rw [build_eq_error, hfilters, ← firstFailure_filters, ← firstFailure_entries,
    ← firstFailure_append, ← Requirement.failsBy_id, ← Requirement.failsBy_id]
  change _ ∨ (Requirement.id firstParameter first).Met ∧
    (_ ∨ (Requirement.id secondParameter second).Met ∧ _) ↔ _
  rw [← firstFailure_cons, ← firstFailure_cons]
  rfl

/-- A request is built if its ids are whole numbers, its filters are mappings or nulls under names
of categories, and every entry of the last mapping for a category can be read.  Otherwise it fails
by the first requirement that it does not meet. -/
theorem fails_by_first (node : String) (first second : Value)
    (top : Option (List (Text × Value))) :
    ((∃ request, build node first second (.ofMapping top) = .ok request) ↔
        (∃ m, first = .int m) ∧ (∃ n, second = .int n) ∧
          (∀ e ∈ top.getD [], (∃ c : Category, e.1 ∈ c.filterNames) ∧
            (e.2 = .null ∨ ∃ entries, e.2 = .map entries)) ∧
          ∀ c, ∀ e ∈ Selection.lastGiven (top.getD []) c,
            ∃ k, Constraint.parse c e.1 e.2 = .ok k) ∧
      ∀ f, build node first second (.ofMapping top) = .error f ↔
        FirstFailure (requirements first second (top.getD [])) f := by
  have hbuild : build node first second (.ofMapping top) =
      build node first second (.given (.map (top.getD []))) := by
    cases top <;> rfl
  rw [hbuild]
  refine ⟨?_, fun f => build_eq_error_iff_firstFailure node⟩
  have hmet : (∃ request, build node first second (.given (.map (top.getD []))) = .ok request) ↔
      ∀ q ∈ requirements first second (top.getD []), q.Met := by
    rw [forall_met_iff, Failure.exists_eq_ok_iff]
    simp only [← build_eq_error_iff_firstFailure node, ne_eq]
  rw [hmet, requirements, List.forall_mem_cons, List.forall_mem_cons, List.forall_mem_append,
    List.forall_mem_map, List.forall_mem_map, Selection.forall_mem_readEntries]
  rfl

-- The field of movies is unknown, too, but it is not reached.
example :
    build nodeVariable (.int 1) (.int 2)
        (.ofMapping (some [("movie", .map [("budgets", .int 1)]), ("cast", .int 1)])) =
      .error (.unknownField "filters" "cast" (.undeclaredCategory "cast")) :=
  rfl

end PathRequest

end Costar
