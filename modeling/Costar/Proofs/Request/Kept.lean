import Costar.Proofs.Request.Assembly

/-!
# Which of the given filters a request keeps

The filter of a category may be given under two names, and a mapping may be given under each of
them.  A request is built from the last of these mappings and keeps every constraint in it; an
earlier mapping of the same category is replaced, and what it asked for is lost unless the last one
asks for it, too.

Main results:

- Definition `Selection.lastGiven`: the last mapping that is given for a category.
- Theorem `Selection.constraintsOf_of_ofValue`: a category is filtered by its last mapping.
- Theorem `PathRequest.keeps_iff_lastGiven`: the constraints that a request keeps are those of the
  last mappings.
- Theorem `PathRequest.replaced_filter_lost`: a constraint that is given is lost when a second
  mapping for its category follows.
-/

namespace Costar

/-! ## The last mapping of a category -/

namespace Selection

/-- The mapping that an entry gives for a category, if it gives one. -/
def mappingFor? (c : Category) (e : Text × Value) : Option (List (Text × Value)) :=
  match e.2 with
  | .map entries => if Category.ofFilterName? e.1 = some c then some entries else none
  | _ => none

/-- The last of the mappings that are given for a category, empty where there is none. -/
def lastGiven (top : List (Text × Value)) (c : Category) : List (Text × Value) :=
  ((top.filterMap (mappingFor? c)).getLast?).getD []

theorem mappingFor?_eq_some {c : Category} {e : Text × Value} {entries : List (Text × Value)}
    (h : mappingFor? c e = some entries) : e.2 = .map entries := by
  unfold mappingFor? at h
  split at h
  · rename_i found hfound
    split at h
    · cases h
      exact hfound
    · cases h
  · cases h

/-- An entry that is taken in replaces the filter of its category by its mapping. -/
theorem get_of_add {s t : Selection} {e : Text × Value} (h : s.add e.1 e.2 = .ok t)
    (c : Category) : t.get c = ((mappingFor? c e).map .map).getD (s.get c) := by
  unfold add at h
  split at h
  · cases h
  · rename_i d hd
    split at h
    · rename_i hnull
      cases h
      simp [mappingFor?, hnull]
    · rename_i entries hmap
      cases h
      by_cases hc : d = c
      · subst hc
        simp [mappingFor?, hmap, hd]
      · rw [get_set_of_ne _ _ (Ne.symm hc)]
        simp [mappingFor?, hmap, hd, hc]
    · cases h

theorem get_of_foldlM {top : List (Text × Value)} {s t : Selection}
    (h : top.foldlM (fun s e => s.add e.1 e.2) s = .ok t) (c : Category) :
    t.get c = (((top.filterMap (mappingFor? c)).getLast?).map .map).getD (s.get c) := by
  induction top generalizing s with
  | nil =>
      cases h
      rfl
  | cons e rest ih =>
      rw [List.foldlM_cons] at h
      rcases Failure.bind_eq_ok.mp h with ⟨next, hnext, h⟩
      rw [ih h, get_of_add hnext, List.filterMap_cons]
      cases mappingFor? c e with
      | none => rfl
      | some entries =>
          rw [List.getLast?_cons]
          cases (rest.filterMap (mappingFor? c)).getLast? <;> rfl

theorem get_of_ofValue {top : List (Text × Value)} {s : Selection}
    (h : ofValue (.map top) = .ok s) (c : Category) :
    s.get c = (((top.filterMap (mappingFor? c)).getLast?).map .map).getD .null := by
  have hempty : ({} : Selection).get c = .null := by cases c <;> rfl
  rw [← hempty]
  exact get_of_foldlM h c

/-- A category is filtered by the last mapping that is given for it. -/
theorem constraintsOf_of_ofValue {top : List (Text × Value)} {s : Selection}
    (h : ofValue (.map top) = .ok s) (c : Category) :
    s.constraintsOf c = Predicate.constraintsOf c (lastGiven top c) := by
  unfold constraintsOf lastGiven
  rw [get_of_ofValue h]
  cases (top.filterMap (mappingFor? c)).getLast? <;> rfl

/-- Where no mapping that is given holds a key twice, no filter does. -/
theorem keysDistinct_of_ofValue {top : List (Text × Value)} {s : Selection}
    (h : ofValue (.map top) = .ok s)
    (hkeys : ∀ name entries, (name, .map entries) ∈ top → (Record.keys entries).Nodup) :
    s.KeysDistinct := by
  intro c entries hentries
  have hget := get_of_ofValue h c
  rw [hentries] at hget
  cases hlast : (top.filterMap (mappingFor? c)).getLast? with
  | none =>
      rw [hlast] at hget
      cases hget
  | some last =>
      rw [hlast] at hget
      cases hget
      rcases List.mem_filterMap.mp (List.mem_of_getLast? hlast) with ⟨e, he, hmapping⟩
      refine hkeys e.1 entries ?_
      rwa [← mappingFor?_eq_some hmapping]

end Selection

namespace PathRequest

/-! ## What a request keeps -/

variable {node : String}

/-- Every entry of the last mapping that is given for a category can be read, and a request keeps
the constraints that these entries are read as, and no others. -/
theorem keeps_iff_lastGiven {first second : Int} {top : List (Text × Value)}
    {request : PathRequest}
    (hkeys : ∀ name entries, (name, .map entries) ∈ top → (Record.keys entries).Nodup)
    (h : build node (.int first) (.int second) (.given (.map top)) = .ok request) (c : Category) :
    (∀ e ∈ Selection.lastGiven top c, ∃ k, Constraint.parse c e.1 e.2 = .ok k) ∧
      ∀ k, request.Keeps c k ↔
        ∃ e ∈ Selection.lastGiven top c, Constraint.parse c e.1 e.2 = .ok k := by
  rcases build_eq_ok_iff.mp h with ⟨m, n, s, constraints, -, -, hs, hconstraints, rfl⟩
  have hread : Predicate.constraintsOf c (Selection.lastGiven top c) = .ok (constraints c) := by
    rw [← Selection.constraintsOf_of_ofValue hs, hconstraints]
  constructor
  · intro e he
    rcases Failure.exists_of_mapM_eq_ok hread he with ⟨k, -, hk⟩
    exact ⟨k, hk⟩
  · intro k
    rw [keeps_assemble node m n (Selection.keysDistinct_of_ofValue hs hkeys) hconstraints]
    exact Failure.mem_of_mapM_eq_ok hread

/-- Filters that give people one mapping under either of the two names for them. -/
def bothNames : List (Text × Value) :=
  [("person", .map [("name", .text "Anna")]), ("person_filter", .map [("adult", .bool false)])]

/-- Of `bothNames` a request keeps the second mapping. -/
theorem keeps_second_of_bothNames :
    (∀ name entries, (name, .map entries) ∈ bothNames → (Record.keys entries).Nodup) ∧
      ∃ request k, build nodeVariable (.int 1) (.int 2) (.given (.map bothNames)) = .ok request ∧
        Constraint.parse .person "adult" (.bool false) = .ok k ∧ request.Keeps .person k := by
  have hkeys : ∀ name entries, (name, .map entries) ∈ bothNames →
      (Record.keys entries).Nodup := by
    intro name entries hmem
    simp only [bothNames, List.mem_cons, Prod.mk.injEq, Value.map.injEq, List.not_mem_nil,
      or_false] at hmem
    rcases hmem with ⟨-, rfl⟩ | ⟨-, rfl⟩ <;> decide
  obtain ⟨request, hrequest⟩ : ∃ request,
      build nodeVariable (.int 1) (.int 2) (.given (.map bothNames)) = .ok request := ⟨_, rfl⟩
  obtain ⟨k, hk⟩ : ∃ k, Constraint.parse .person "adult" (.bool false) = .ok k := ⟨_, rfl⟩
  refine ⟨hkeys, request, k, hrequest, hk, ?_⟩
  refine ((keeps_iff_lastGiven hkeys hrequest .person).2 k).mpr ⟨("adult", .bool false), ?_, hk⟩
  exact List.mem_singleton.mpr rfl

/-- What the first mapping of `bothNames` asks for is lost. -/
theorem replaced_filter_lost :
    ∃ request k, build nodeVariable (.int 1) (.int 2) (.given (.map bothNames)) = .ok request ∧
      (("person" : Text), .map [("name", .text "Anna")]) ∈ bothNames ∧
      Constraint.parse .person "name" (.text "Anna") = .ok k ∧ ¬ request.Keeps .person k := by
  obtain ⟨request, hrequest, hfields⟩ : ∃ request,
      build nodeVariable (.int 1) (.int 2) (.given (.map bothNames)) = .ok request ∧
        request.predicates.map (fun q => q.2.constraints.map (·.field)) = [["adult"]] :=
    ⟨_, rfl, rfl⟩
  refine ⟨request, _, hrequest, List.mem_cons_self, rfl, ?_⟩
  rintro ⟨⟨p, hp, hk⟩, -⟩
  have hmem : "name" ∈ p.constraints.map (·.field) := List.mem_map_of_mem hk
  have hlist := List.mem_map_of_mem (f := fun q => q.2.constraints.map (·.field)) hp
  rw [hfields, List.mem_singleton] at hlist
  rw [hlist] at hmem
  exact absurd hmem (by decide)

end PathRequest

end Costar
