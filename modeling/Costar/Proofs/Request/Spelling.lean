import Costar.Proofs.Request.Kept
import Mathlib.Logic.Relation

/-!
# Other spellings of the same filters

The same filters can be given in many ways: in another order, under the older names of the
categories, with nulls for categories that have no filter, with empty mappings, or already sorted by
category.  As long as no category is given two mappings, all of these spellings are read as the same
constraints, or none of them is accepted.

Main results:

- Definition `Filters.Respelled`: one change of the spelling.
- Theorem `Selection.exists_ofValue`: filters are accepted if each entry is.
- Theorem `Filters.Respelled.agree`: one change does not matter.
- Theorem `Filters.agree_of_respelled`: neither does any number of changes.
- Theorem `PathRequest.build_of_agree`: filters that are read alike make the same request.
-/

namespace Costar

theorem Category.ofFilterName?_name (c : Category) : ofFilterName? c.name = some c := by
  cases c <;> decide

namespace Selection

/-! ## Which filters are accepted -/

/-- Whether an entry is a filter that can be given: a mapping or null, under a name for the filter
of a category. -/
def Accepted (e : Text × Value) : Prop :=
  (∃ c, Category.ofFilterName? e.1 = some c) ∧ (e.2 = .null ∨ ∃ entries, e.2 = .map entries)

theorem exists_add {s : Selection} {e : Text × Value} :
    (∃ t, s.add e.1 e.2 = .ok t) ↔ Accepted e := by
  unfold add Accepted
  cases Category.ofFilterName? e.1 with
  | none => simp
  | some c => cases e.2 <;> simp

/-- Filters are accepted if every entry is, whatever the others are. -/
theorem exists_ofValue {top : List (Text × Value)} :
    (∃ s, ofValue (.map top) = .ok s) ↔ ∀ e ∈ top, Accepted e := by
  change (∃ s, top.foldlM (fun s e => s.add e.1 e.2) ({} : Selection) = .ok s) ↔ _
  generalize ({} : Selection) = start
  induction top generalizing start with
  | nil => exact ⟨fun _ => nofun, fun _ => ⟨start, rfl⟩⟩
  | cons e rest ih =>
      rw [List.forall_mem_cons, ← exists_add (s := start)]
      simp only [List.foldlM_cons, Failure.bind_eq_ok]
      constructor
      · rintro ⟨s, t, ht, hs⟩
        exact ⟨⟨t, ht⟩, (ih t).mp ⟨s, hs⟩⟩
      · rintro ⟨⟨t, ht⟩, hrest⟩
        rcases (ih t).mpr hrest with ⟨s, hs⟩
        exact ⟨s, t, ht, hs⟩

/-! ## Which mappings are given -/

/-- The entries of a mapping. -/
def mapping? : Value → Option (List (Text × Value))
  | .map entries => some entries
  | _ => none

theorem mappingFor?_eq {c d : Category} {name : Text} (h : Category.ofFilterName? name = some d)
    (v : Value) : mappingFor? c (name, v) = if d = c then mapping? v else none := by
  cases v <;> simp [mappingFor?, mapping?, h]

/-- Where the same mapping comes last for a category, the same constraints are read. -/
theorem constraintsOf_congr {top other : List (Text × Value)} {s t : Selection} {c : Category}
    (hs : ofValue (.map top) = .ok s) (ht : ofValue (.map other) = .ok t)
    (h : lastGiven top c = lastGiven other c) : s.constraintsOf c = t.constraintsOf c := by
  rw [constraintsOf_of_ofValue hs, constraintsOf_of_ofValue ht, h]

/-- The filters of a selection, each under the current name of its category. -/
def written (s : Selection) : List (Text × Value) :=
  Category.all.map fun c => (c.name, s.get c)

/-- Whether a selection holds nothing but mappings and nulls. -/
def Regular (s : Selection) : Prop :=
  ∀ c, s.get c = .null ∨ ∃ entries, s.get c = .map entries

/-- What is written for a category is its filter. -/
theorem filterMap_written (s : Selection) (c : Category) :
    s.written.filterMap (mappingFor? c) = (mapping? (s.get c)).toList := by
  unfold written
  rw [List.filterMap_map]
  simp only [Function.comp_def, mappingFor?_eq (Category.ofFilterName?_name _)]
  cases hmapping : mapping? (s.get c) <;> cases c <;> simp [Category.all, hmapping]

/-- A selection that is written down and read again is the same. -/
theorem get_of_written {s t : Selection} (hs : s.Regular) (h : ofValue (.map s.written) = .ok t)
    (c : Category) : t.get c = s.get c := by
  rw [get_of_ofValue h, filterMap_written]
  rcases hs c with hnull | ⟨entries, hmap⟩
  · rw [hnull]
    rfl
  · rw [hmap]
    rfl

theorem accepted_written {s : Selection} (hs : s.Regular) : ∀ e ∈ s.written, Accepted e := by
  intro e he
  rcases List.mem_map.mp he with ⟨c, -, rfl⟩
  exact ⟨⟨c, c.ofFilterName?_name⟩, hs c⟩

end Selection

namespace Filters

/-! ## Spellings -/

/-- Whether filters give each category at most one mapping.  Nulls do not count. -/
def MapsOnce : Filters → Prop
  | .given (.map top) => ∀ c, (top.filterMap (Selection.mappingFor? c)).length ≤ 1
  | _ => True

/-- One change of the way in which filters are given: in another order, under another name of the
same category, without a null, without an empty mapping for a category that has no other, or sorted
by category.  Since the order may change, the entry that is changed may be the first. -/
inductive Respelled : Filters → Filters → Prop
  | permuted {top other : List (Text × Value)} (h : top.Perm other) :
      Respelled (.given (.map top)) (.given (.map other))
  | renamed {name other : Text} {c : Category} {v : Value} {rest : List (Text × Value)}
      (hname : Category.ofFilterName? name = some c)
      (hother : Category.ofFilterName? other = some c) :
      Respelled (.given (.map ((name, v) :: rest))) (.given (.map ((other, v) :: rest)))
  | withoutNull {name : Text} {c : Category} {rest : List (Text × Value)}
      (hname : Category.ofFilterName? name = some c) :
      Respelled (.given (.map ((name, .null) :: rest))) (.given (.map rest))
  | withoutEmpty {name : Text} {c : Category} {rest : List (Text × Value)}
      (hname : Category.ofFilterName? name = some c)
      (hrest : ∀ e ∈ rest, Category.ofFilterName? e.1 = some c → e.2 = .null) :
      Respelled (.given (.map ((name, .map []) :: rest))) (.given (.map rest))
  | sorted {s : Selection} (hs : s.Regular) :
      Respelled (.given (.map s.written)) (.sorted s)

/-- Filters that are read as the same constraints, or of which neither is accepted. -/
structure Agree (f g : Filters) : Prop where
  accepted : (∃ s, f.selection = .ok s) ↔ ∃ t, g.selection = .ok t
  constraints : ∀ s t, f.selection = .ok s → g.selection = .ok t →
    ∀ c, s.constraintsOf c = t.constraintsOf c

namespace Agree

variable {f g h : Filters}

theorem refl (f : Filters) : Agree f f where
  accepted := Iff.rfl
  constraints := by
    intro s t hs ht c
    cases hs.symm.trans ht
    rfl

theorem symm (hfg : Agree f g) : Agree g f where
  accepted := hfg.accepted.symm
  constraints s t hs ht c := (hfg.constraints t s ht hs c).symm

theorem trans (hfg : Agree f g) (hgh : Agree g h) : Agree f h where
  accepted := hfg.accepted.trans hgh.accepted
  constraints := by
    intro s u hs hu c
    rcases hfg.accepted.mp ⟨s, hs⟩ with ⟨t, ht⟩
    exact (hfg.constraints s t hs ht c).trans (hgh.constraints t u ht hu c)

/-- Filters agree if the same entries are accepted and the same mapping comes last for each
category. -/
theorem of_lastGiven {top other : List (Text × Value)}
    (haccepted : (∀ e ∈ top, Selection.Accepted e) ↔ ∀ e ∈ other, Selection.Accepted e)
    (hlast : ∀ c, Selection.lastGiven top c = Selection.lastGiven other c) :
    Agree (.given (.map top)) (.given (.map other)) where
  accepted := by
    change (∃ s, Selection.ofValue _ = .ok s) ↔ ∃ t, Selection.ofValue _ = .ok t
    rw [Selection.exists_ofValue, Selection.exists_ofValue, haccepted]
  constraints _ _ hs ht c := Selection.constraintsOf_congr hs ht (hlast c)

end Agree

/-! ## One change -/

namespace Respelled

variable {f g : Filters}

/-- A list of at most one item has but one order. -/
theorem eq_of_perm {α : Type} {l m : List α} (h : l.Perm m) (hl : l.length ≤ 1) : l = m := by
  match l with
  | [] => exact h.nil_eq
  | [a] => exact List.singleton_perm.mp h
  | a :: b :: rest => simp at hl

/-- Where all entries for a category are nulls, no mapping is given for it. -/
theorem filterMap_eq_nil {c : Category} {rest : List (Text × Value)}
    (hrest : ∀ e ∈ rest, Category.ofFilterName? e.1 = some c → e.2 = .null) :
    rest.filterMap (Selection.mappingFor? c) = [] := by
  rw [List.filterMap_eq_nil_iff]
  intro e he
  by_cases hname : Category.ofFilterName? e.1 = some c
  · simp [Selection.mappingFor?, hrest e he hname]
  · simp only [Selection.mappingFor?, if_neg hname]
    cases e.2 <;> rfl

/-- A change gives no category a second mapping. -/
theorem mapsOnce_iff (h : Respelled f g) : f.MapsOnce ↔ g.MapsOnce := by
  unfold MapsOnce
  cases h with
  | permuted h =>
      refine forall_congr' fun c => ?_
      rw [(h.filterMap _).length_eq]
  | renamed hname hother =>
      refine forall_congr' fun c => ?_
      rw [List.filterMap_cons, List.filterMap_cons, Selection.mappingFor?_eq hname,
        Selection.mappingFor?_eq hother]
  | withoutNull hname =>
      refine forall_congr' fun c => ?_
      rw [List.filterMap_cons, Selection.mappingFor?_eq hname]
      simp [Selection.mapping?]
  | @withoutEmpty name d rest hname hrest =>
      refine forall_congr' fun c => ?_
      rw [List.filterMap_cons, Selection.mappingFor?_eq hname]
      by_cases hc : d = c
      · subst hc
        rw [filterMap_eq_nil hrest]
        simp [Selection.mapping?]
      · simp [hc]
  | sorted hs =>
      refine iff_of_true (fun c => ?_) trivial
      rw [Selection.filterMap_written]
      cases Selection.mapping? _ <;> simp

/-- Filters that give each category at most one mapping are read alike after a change. -/
theorem agree (h : Respelled f g) (honce : f.MapsOnce) : Agree f g := by
  cases h with
  | @permuted top other h =>
      apply Agree.of_lastGiven
      · simp only [h.mem_iff]
      · intro c
        unfold Selection.lastGiven
        rw [eq_of_perm (h.filterMap (Selection.mappingFor? c)) (honce c)]
  | renamed hname hother =>
      apply Agree.of_lastGiven
      · simp [Selection.Accepted, hname, hother]
      · intro c
        unfold Selection.lastGiven
        rw [List.filterMap_cons, List.filterMap_cons, Selection.mappingFor?_eq hname,
          Selection.mappingFor?_eq hother]
  | withoutNull hname =>
      apply Agree.of_lastGiven
      · simp [Selection.Accepted, hname]
      · intro c
        unfold Selection.lastGiven
        rw [List.filterMap_cons, Selection.mappingFor?_eq hname]
        simp [Selection.mapping?]
  | @withoutEmpty name d rest hname hrest =>
      apply Agree.of_lastGiven
      · simp [Selection.Accepted, hname]
      · intro c
        unfold Selection.lastGiven
        rw [List.filterMap_cons, Selection.mappingFor?_eq hname]
        by_cases hc : d = c
        · subst hc
          rw [filterMap_eq_nil hrest]
          simp [Selection.mapping?]
        · simp [hc]
  | @sorted s hs =>
      constructor
      · refine iff_of_true ?_ ⟨s, rfl⟩
        exact Selection.exists_ofValue.mpr (Selection.accepted_written hs)
      · rintro t _ ht ⟨⟩ c
        unfold Selection.constraintsOf
        rw [Selection.get_of_written hs ht]

end Respelled

/-! ## Any number of changes -/

/-- However often the spelling of filters is changed, forth or back, they are read alike. -/
theorem agree_of_respelled {f g : Filters} (h : Relation.EqvGen Respelled f g) :
    (f.MapsOnce ↔ g.MapsOnce) ∧ (f.MapsOnce → Agree f g) := by
  induction h with
  | rel f g hfg => exact ⟨hfg.mapsOnce_iff, hfg.agree⟩
  | refl f => exact ⟨Iff.rfl, fun _ => Agree.refl f⟩
  | symm f g _ ih => exact ⟨ih.1.symm, fun honce => (ih.2 (ih.1.mpr honce)).symm⟩
  | trans f g h _ _ ihfg ihgh =>
      refine ⟨ihfg.1.trans ihgh.1, ?_⟩
      intro honce
      exact (ihfg.2 honce).trans (ihgh.2 (ihfg.1.mp honce))

end Filters

namespace PathRequest

/-- Filters that are read alike make the same request. -/
theorem build_of_agree {node : String} {first second : Value} {f g : Filters}
    (h : f.Agree g) {request : PathRequest} (hf : build node first second f = .ok request) :
    build node first second g = .ok request := by
  rw [build_eq_ok_iff] at hf ⊢
  rcases hf with ⟨m, n, s, constraints, hm, hn, hs, hconstraints, hrequest⟩
  rcases h.accepted.mp ⟨s, hs⟩ with ⟨t, ht⟩
  refine ⟨m, n, t, constraints, hm, hn, ht, ?_, hrequest⟩
  intro c
  rw [← h.constraints s t hs ht]
  exact hconstraints c

end PathRequest

end Costar
