import Costar.Proofs.Cypher.Written
import Costar.Proofs.Request.Outline
import Costar.Proofs.Request.Spelling
import Mathlib.Data.List.Perm.Basic

/-!
# The order of the entries of a filter

The entries of a category's mapping may stand in any order.  The request has the same parameters
then, and the predicates of the other categories are the same; in the text, nothing changes but the
order in which the conditions for that category are joined.

Main results:

- Definition `Filters.Reordered`: the entries of one mapping in another order.
- Theorem `Filters.Reordered.reads`: they are read as the same constraints in another order.
- Theorem `PathRequest.exists_frame`: the text around the condition on a category.
- Theorem `PathRequest.rearranged_assemble`: what another order of the constraints does to a
  request.
- Theorem `PathRequest.spelling_and_order_of_filters`: spellings and orders together.
-/

namespace Costar

open Cypher

/-! ## Reading in another order -/

namespace Predicate

/-- Entries in another order are read as the same constraints in that order. -/
theorem constraintsOf_perm {c : Category} {entries other : List (Text × Value)}
    {ks : List Constraint} (h : entries.Perm other) (hks : constraintsOf c entries = .ok ks) :
    ∃ ls, constraintsOf c other = .ok ls ∧ ks.Perm ls := by
  rcases List.perm_comp_forall₂ h.symm (Failure.mapM_eq_ok.mp hks) with ⟨ls, hls, hperm⟩
  exact ⟨ls, Failure.mapM_eq_ok.mpr hls, hperm.symm⟩

/-- The text of a predicate joins the conditions of its constraints. -/
theorem text_of_assemble {node : String} {ks : List Constraint} {p : Predicate}
    (h : assemble node ks = some p) :
    p.text = " AND ".intercalate (p.constraints.map fun k => (k.condition node).text) := by
  cases ks with
  | nil => cases h
  | cons k rest =>
      cases h
      refine (Condition.text_conjunction _ _).trans ?_
      rw [List.map_map]
      rfl

end Predicate

namespace Filters

/-- Whether in none of the mappings that are given a key stands twice. -/
def KeysDistinct : Filters → Prop
  | .given (.map top) => ∀ name entries, (name, .map entries) ∈ top → (Record.keys entries).Nodup
  | .given _ => True
  | .sorted s => s.KeysDistinct

/-- Filters with the entries of one mapping for a category in another order. -/
inductive Reordered (c : Category) : Filters → Filters → Prop
  | given {before after : List (Text × Value)} {name : Text}
      {entries other : List (Text × Value)} (hname : Category.ofFilterName? name = some c)
      (h : entries.Perm other) :
      Reordered c (.given (.map (before ++ (name, .map entries) :: after)))
        (.given (.map (before ++ (name, .map other) :: after)))
  | sorted {s : Selection} {entries other : List (Text × Value)} (hs : s.get c = .map entries)
      (h : entries.Perm other) : Reordered c (.sorted s) (.sorted (s.set c (.map other)))

/-- Where no key stands twice in what is given, none does in what is read. -/
theorem keysDistinct_of_selection {f : Filters} {s : Selection} (hkeys : f.KeysDistinct)
    (hs : f.selection = .ok s) : s.KeysDistinct := by
  cases f with
  | sorted t =>
      cases hs
      exact hkeys
  | given v =>
      rcases Failure.bind_eq_ok.mp hs with ⟨entries, hentries, hfold⟩
      rcases Predicate.entries_eq_ok hentries with rfl | ⟨rfl, -⟩
      · exact Selection.keysDistinct_of_ofValue hs hkeys
      · cases hfold
        intro c entries hget
        cases c <;> cases hget

namespace Reordered

variable {c : Category} {f g : Filters}

theorem symm (h : Reordered c f g) : Reordered c g f := by
  cases h with
  | given hname h => exact .given hname h.symm
  | @sorted s entries other hs h =>
      have hback : (s.set c (.map other)).set c (.map entries) = s := by
        rw [← hs]
        cases c <;> rfl
      have hswap := Reordered.sorted (Selection.get_set_self s c (.map other)) h.symm
      rwa [hback] at hswap

theorem keysDistinct (h : Reordered c f g) (hkeys : f.KeysDistinct) : g.KeysDistinct := by
  have hperm : ∀ {entries other : List (Text × Value)}, entries.Perm other →
      (Record.keys entries).Nodup → (Record.keys other).Nodup := by
    intro entries other h hnodup
    have hkeys : (Record.keys entries).Perm (Record.keys other) := h.map _
    exact hkeys.nodup_iff.mp hnodup
  cases h with
  | @given before after name entries other hname h =>
      intro name' entries' hmem
      rw [List.mem_append, List.mem_cons] at hmem
      rcases hmem with hmem | heq | hmem
      · exact hkeys name' entries' (List.mem_append_left _ hmem)
      · cases heq
        exact hperm h (hkeys name entries (List.mem_append_right _ List.mem_cons_self))
      · exact hkeys name' entries' (List.mem_append_right _ (List.mem_cons_of_mem _ hmem))
  | @sorted s entries other hs h =>
      intro d entries' hget
      by_cases hd : d = c
      · subst hd
        rw [Selection.get_set_self] at hget
        cases hget
        exact hperm h (hkeys d entries hs)
      · rw [Selection.get_set_of_ne _ _ hd] at hget
        exact hkeys d entries' hget

/-- The mapping that comes last for a category has its entries in another order, if at all. -/
theorem perm_lastGiven {before after : List (Text × Value)} {name : Text}
    {entries other : List (Text × Value)} (hname : Category.ofFilterName? name = some c)
    (h : entries.Perm other) :
    (Selection.lastGiven (before ++ (name, .map entries) :: after) c).Perm
      (Selection.lastGiven (before ++ (name, .map other) :: after) c) := by
  unfold Selection.lastGiven
  simp only [List.filterMap_append, List.filterMap_cons, Selection.mappingFor?_eq hname,
    Selection.mapping?, if_true, List.getLast?_append, List.getLast?_cons, Option.some_or,
    Option.getD_some]
  cases (after.filterMap (Selection.mappingFor? c)).getLast? with
  | none => exact h
  | some last => exact List.Perm.refl last

/-- Filters with entries in another order are read as the same constraints in that order. -/
theorem reads (h : Reordered c f g) {s : Selection} (hs : f.selection = .ok s) :
    ∃ t, g.selection = .ok t ∧ (∀ d, d ≠ c → s.constraintsOf d = t.constraintsOf d) ∧
      ∀ ks, s.constraintsOf c = .ok ks → ∃ ls, t.constraintsOf c = .ok ls ∧ ks.Perm ls := by
  cases h with
  | @given before after name entries other hname h =>
      have haccepted : ∃ t, Selection.ofValue (.map (before ++ (name, .map other) :: after)) =
          .ok t := by
        have hall := Selection.exists_ofValue.mp ⟨s, hs⟩
        rw [Selection.exists_ofValue]
        rw [List.forall_mem_append, List.forall_mem_cons] at hall ⊢
        exact ⟨hall.1, ⟨⟨c, hname⟩, Or.inr ⟨other, rfl⟩⟩, hall.2.2⟩
      rcases haccepted with ⟨t, ht⟩
      refine ⟨t, ht, ?_, ?_⟩
      · intro d hd
        apply Selection.constraintsOf_congr hs ht
        simp [Selection.lastGiven, Selection.mappingFor?_eq hname, Ne.symm hd]
      · intro ks hks
        rw [Selection.constraintsOf_of_ofValue hs] at hks
        rw [Selection.constraintsOf_of_ofValue ht]
        exact Predicate.constraintsOf_perm (perm_lastGiven hname h) hks
  | @sorted _ entries other hget h =>
      cases hs
      refine ⟨_, rfl, ?_, ?_⟩
      · intro d hd
        unfold Selection.constraintsOf
        rw [Selection.get_set_of_ne _ _ hd]
      · intro ks hks
        unfold Selection.constraintsOf at hks ⊢
        rw [hget] at hks
        rw [Selection.get_set_self]
        exact Predicate.constraintsOf_perm h hks

end Reordered
end Filters

namespace PathRequest

variable {node : String} {c : Category} {m n : Int}
variable {constraints other : Category → List Constraint}

/-! ## The text around a condition -/

/-- The text of the predicate on a category; empty where there is none. -/
def textOn (r : PathRequest) (c : Category) : String :=
  ((r.predicates.lookup c).map Predicate.text).getD ""

/-- What categories have is found by them. -/
theorem lookup_filterMap (f : Category → Option Predicate) (cs : List Category) :
    (cs.filterMap fun d => (f d).map (d, ·)).lookup c = if c ∈ cs then f c else none := by
  induction cs with
  | nil => rfl
  | cons d rest ih =>
      rw [List.filterMap_cons]
      by_cases hd : c = d
      · subst hd
        cases hfound : f c with
        | none => simp [ih, hfound]
        | some p => simp
      · have hne : (c == d) = false := by simpa using hd
        cases f d with
        | none => simp [ih, hd]
        | some p => simp [List.lookup_cons, ih, hne, hd]

theorem lookup_predicatesOf (node : String) (constraints : Category → List Constraint)
    (c : Category) :
    (predicatesOf node constraints).lookup c = Predicate.assemble node (constraints c) := by
  unfold predicatesOf
  rw [lookup_filterMap, if_pos c.mem_all]

theorem textOn_assemble (node : String) (m n : Int) (constraints : Category → List Constraint)
    (c : Category) : (assemble node m n constraints).textOn c =
      ((Predicate.assemble node (constraints c)).map Predicate.text).getD "" := by
  rw [← lookup_predicatesOf]
  rfl

/-- Around one of several texts that are joined stands what depends on the others only. -/
theorem exists_intercalate (separator : String) (l rest : List String) :
    ∃ before after, ∀ text, separator.intercalate (l ++ text :: rest) =
      before ++ text ++ after := by
  have hrest : ∃ after, ∀ text, separator.intercalate (text :: rest) = text ++ after := by
    cases rest with
    | nil => exact ⟨"", fun text => by simp⟩
    | cons next rest =>
        refine ⟨separator ++ separator.intercalate (next :: rest), ?_⟩
        intro text
        rw [String.intercalate_cons_cons, String.append_assoc]
  rcases hrest with ⟨after, hafter⟩
  by_cases hl : l = []
  · refine ⟨"", after, ?_⟩
    intro text
    rw [hl, List.nil_append, hafter, String.empty_append]
  · refine ⟨separator.intercalate l ++ separator, after, ?_⟩
    intro text
    rw [String.intercalate_append_of_ne_nil hl (List.cons_ne_nil _ _), hafter]
    simp only [String.append_assoc]

/-- Around the text of a predicate stands what depends on the category only. -/
theorem exists_conditionOn (c : Category) :
    ∃ before after, ∀ p, (conditionOn c p).text = before ++ p.text ++ after := by
  cases c with
  | person =>
      let endpoints := Condition.memberOf ⟨nodeVariable, personId⟩
        [firstParameter, secondParameter]
      refine ⟨Condition.header nodeVariable "x" pathVariable Label.person ++ "(",
        ")" ++ " OR " ++ endpoints.text ++ ")", ?_⟩
      intro p
      change (Condition.everyNode _ _ _ _ (.either (.group p.condition) endpoints)).text = _
      rw [Condition.text_everyNode, Condition.text_either, Condition.text_group]
      simp only [Predicate.text, String.append_assoc]
      rfl
  | movie => exact ⟨_, _, fun p => rfl⟩
  | episode => exact ⟨_, _, fun p => rfl⟩

/-- Around the text of one condition stands what depends on the others only. -/
theorem exists_text (l rest : List Condition) :
    ∃ before after, ∀ (r : PathRequest) condition, r.conditions = l ++ condition :: rest →
      r.text = before ++ condition.text ++ after := by
  obtain ⟨before, after, hclause⟩ :=
    exists_intercalate "\nAND " (l.map Condition.text) (rest.map Condition.text)
  obtain ⟨before', after', htext⟩ := exists_intercalate "\n"
    ["MATCH " ++ personPattern "p1" firstParameter ++ ", " ++
        personPattern "p2" secondParameter ++ ", ",
      pathVariable ++ " = shortestPath((p1)-[:" ++ "|".intercalate creditTypes ++ "*]-(p2))"]
    ["RETURN " ++ pathVariable]
  refine ⟨before' ++ "WHERE " ++ before, after ++ after', ?_⟩
  intro r condition hconditions
  have hwhere : whereClause r.conditions =
      ["WHERE " ++ (before ++ condition.text ++ after)] := by
    rw [hconditions, whereClause, if_neg (by simp), List.map_append, List.map_cons, hclause]
  unfold text
  rw [hwhere, List.append_assoc, List.singleton_append, htext]
  simp only [String.append_assoc]

/-- The text around the predicate on a category does not depend on the predicate. -/
theorem exists_frame (node : String) (m n : Int) (constraints : Category → List Constraint)
    (c : Category) :
    ∃ before after, ∀ other : Category → List Constraint, (∀ d, d ≠ c → constraints d = other d) →
      other c ≠ [] → (assemble node m n other).text =
        before ++ (assemble node m n other).textOn c ++ after := by
  rcases List.append_of_mem c.mem_all with ⟨earlier, later, hall⟩
  have hnodup : (earlier ++ c :: later).Nodup := by
    rw [← hall]
    decide
  have hne : ∀ d, d ∈ earlier ∨ d ∈ later → d ≠ c := by
    rintro d hd rfl
    have hnot := (List.nodup_middle.mp hnodup).notMem
    exact hnot (List.mem_append.mpr hd)
  let conditionsOf (ds : List Category) : List Condition := ds.filterMap fun d =>
    (Predicate.assemble node (constraints d)).map (conditionOn d)
  obtain ⟨before, after, htext⟩ := exists_text (conditionsOf earlier) (conditionsOf later)
  obtain ⟨before', after', hcondition⟩ := exists_conditionOn c
  refine ⟨before ++ before', after' ++ after, ?_⟩
  intro other hothers hown
  obtain ⟨k, hk⟩ := List.exists_mem_of_ne_nil _ hown
  obtain ⟨p, hp⟩ := Predicate.exists_assemble_of_mem hk node
  have hsame : ∀ ds : List Category, (∀ d ∈ ds, d ≠ c) →
      (ds.filterMap fun d => (Predicate.assemble node (other d)).map (conditionOn d)) =
        conditionsOf ds := by
    intro ds hds
    exact List.filterMap_congr fun d hd => by rw [hothers d (hds d hd)]
  have hconditions : (assemble node m n other).conditions =
      conditionsOf earlier ++ conditionOn c p :: conditionsOf later := by
    rw [conditions_eq, hall, List.filterMap_append, List.filterMap_cons, hp,
      hsame earlier fun d hd => hne d (Or.inl hd), hsame later fun d hd => hne d (Or.inr hd)]
    rfl
  rw [htext _ _ hconditions, hcondition, textOn_assemble, hp]
  simp only [Option.map_some, Option.getD_some, String.append_assoc]

/-- Around two orders of the constraints on a category stands the same text. -/
theorem exists_frame_of_perm (node : String) (m n : Int)
    (hown : (constraints c).Perm (other c)) (hothers : ∀ d, d ≠ c → constraints d = other d) :
    ∃ before after,
      (assemble node m n constraints).text =
          before ++ (assemble node m n constraints).textOn c ++ after ∧
        (assemble node m n other).text =
          before ++ (assemble node m n other).textOn c ++ after := by
  by_cases hnone : constraints c = []
  · -- without a constraint on the category nothing can change
    have hnone' : other c = [] := (hnone ▸ hown).nil_eq.symm
    have hsame : other = constraints := by
      funext d
      by_cases hd : d = c
      · rw [hd, hnone, hnone']
      · exact (hothers d hd).symm
    have hempty : (assemble node m n constraints).textOn c = "" := by
      rw [textOn_assemble, hnone]
      rfl
    refine ⟨(assemble node m n constraints).text, "", ?_, ?_⟩ <;> simp [hsame, hempty]
  · have hsome : other c ≠ [] := fun hnone' => hnone (hnone' ▸ hown).eq_nil
    obtain ⟨before, after, htext⟩ := exists_frame node m n constraints c
    exact ⟨before, after, htext constraints (fun _ _ => rfl) hnone, htext other hothers hsome⟩

/-! ## Constraints in another order -/

/-- Requests that differ in nothing but the order of the constraints on a category. -/
structure Rearranged (node : String) (c : Category) (r s : PathRequest) : Prop where
  first : r.first = s.first
  second : r.second = s.second
  names : (Record.keys r.parameters).Nodup
  parameters : r.parameters.Perm s.parameters
  categories : r.predicates.map (·.1) = s.predicates.map (·.1)
  others : ∀ d p, d ≠ c → ((d, p) ∈ r.predicates ↔ (d, p) ∈ s.predicates)
  own : ∀ p q, (c, p) ∈ r.predicates → (c, q) ∈ s.predicates →
    p.constraints.Perm q.constraints ∧ p.parameters.Perm q.parameters
  parts : ∀ p, (c, p) ∈ r.predicates ∨ (c, p) ∈ s.predicates →
    p.text = " AND ".intercalate (p.constraints.map fun k => (k.condition node).text)
  text : ∃ before after, r.text = before ++ r.textOn c ++ after ∧
    s.text = before ++ s.textOn c ++ after

theorem map_fst_predicatesOf (node : String) (constraints : Category → List Constraint) :
    (predicatesOf node constraints).map (·.1) =
      Category.all.filter fun c => !(constraints c).isEmpty := by
  unfold predicatesOf
  rw [List.map_filterMap, ← List.filterMap_eq_filter]
  apply List.filterMap_congr
  intro c _
  cases hc : constraints c <;> simp [Predicate.assemble, Option.guard, hc]

/-- Constraints on a category in another order make a request that differs in nothing else. -/
theorem rearranged_assemble {s t : Selection} (m n : Int) (hs : s.KeysDistinct)
    (ht : t.KeysDistinct) (hconstraints : ∀ d, s.constraintsOf d = .ok (constraints d))
    (hother : ∀ d, t.constraintsOf d = .ok (other d)) (hown : (constraints c).Perm (other c))
    (hothers : ∀ d, d ≠ c → constraints d = other d) :
    Rearranged node c (assemble node m n constraints) (assemble node m n other) := by
  have hperm : ∀ d, (constraints d).Perm (other d) := by
    intro d
    by_cases hd : d = c
    · rw [hd]
      exact hown
    · rw [hothers d hd]
  rcases parameters_assemble node m n hs hconstraints with ⟨hparameters, hnames⟩
  rcases parameters_assemble node m n ht hother with ⟨hparameters', -⟩
  refine ⟨rfl, rfl, hnames, ?_, ?_, ?_, ?_, ?_, ?_⟩
  · rw [hparameters, hparameters']
    apply List.Perm.append_left
    apply List.Perm.flatMap_left
    intro d _
    exact (hperm d).flatMap_right _
  · change (predicatesOf node constraints).map (·.1) = (predicatesOf node other).map (·.1)
    rw [map_fst_predicatesOf, map_fst_predicatesOf]
    exact List.filter_congr fun d _ => by rw [(hperm d).isEmpty_eq]
  · intro d p hd
    change (d, p) ∈ predicatesOf node constraints ↔ (d, p) ∈ predicatesOf node other
    rw [mem_predicatesOf, mem_predicatesOf, hothers d hd]
  · intro p q hp hq
    have hp := mem_predicatesOf.mp hp
    have hq := mem_predicatesOf.mp hq
    rw [Predicate.constraints_of_assemble hp, Predicate.constraints_of_assemble hq,
      flatMap_bindings hp (declared_of_constraintsOf (hconstraints c))
        (keys_of_constraintsOf hs (hconstraints c)),
      flatMap_bindings hq (declared_of_constraintsOf (hother c))
        (keys_of_constraintsOf ht (hother c))]
    exact ⟨hown, hown.flatMap_right _⟩
  · rintro p (hp | hp)
    · exact Predicate.text_of_assemble (mem_predicatesOf.mp hp)
    · exact Predicate.text_of_assemble (mem_predicatesOf.mp hp)
  · exact exists_frame_of_perm node m n hown hothers

/-- Entries in another order do not keep a request from being built, and rearrange it. -/
theorem build_of_reordered {first second : Int} {f g : Filters} (hkeys : f.KeysDistinct)
    (h : Filters.Reordered c f g) {request : PathRequest}
    (hf : build node (.int first) (.int second) f = .ok request) :
    ∃ request', build node (.int first) (.int second) g = .ok request' ∧
      Rearranged node c request request' := by
  rcases build_eq_ok_iff.mp hf with ⟨m, n, s, constraints, hm, hn, hs, hconstraints, rfl⟩
  rcases h.reads hs with ⟨t, ht, hothers, hown⟩
  rcases hown _ (hconstraints c) with ⟨ls, hls, hperm⟩
  have hread : ∀ d, ∃ ks, t.constraintsOf d = .ok ks := by
    intro d
    by_cases hd : d = c
    · rw [hd]
      exact ⟨ls, hls⟩
    · rw [← hothers d hd]
      exact ⟨constraints d, hconstraints d⟩
  choose other hother using hread
  refine ⟨assemble node m n other,
    build_eq_ok_iff.mpr ⟨m, n, t, other, hm, hn, ht, hother, rfl⟩, ?_⟩
  apply rearranged_assemble m n (f.keysDistinct_of_selection hkeys hs)
    (g.keysDistinct_of_selection (h.keysDistinct hkeys) ht) hconstraints hother
  · cases hls.symm.trans (hother c)
    exact hperm
  · intro d hd
    have heq := (hconstraints d).symm.trans ((hothers d hd).trans (hother d))
    injection heq

/-- Filters that give no category more than one mapping make a request exactly when any other
spelling of them does, and then the same one.  When the entries of a mapping stand in another order,
a request is made exactly when it was before, with the same parameters; the predicates of the other
categories are the same, and the conditions for this one are joined in another order. -/
theorem spelling_and_order_of_filters (node : String) (first second : Int) (f : Filters) :
    (f.MapsOnce → ∀ g, Relation.EqvGen Filters.Respelled f g → ∀ request,
      build node (.int first) (.int second) f = .ok request ↔
        build node (.int first) (.int second) g = .ok request) ∧
    (f.KeysDistinct → ∀ c g, Filters.Reordered c f g →
      ((∃ request, build node (.int first) (.int second) f = .ok request) ↔
        ∃ request, build node (.int first) (.int second) g = .ok request) ∧
      ∀ request request', build node (.int first) (.int second) f = .ok request →
        build node (.int first) (.int second) g = .ok request' →
        Rearranged node c request request') := by
  constructor
  · intro honce g hrespelled request
    have hagree := (Filters.agree_of_respelled hrespelled).2 honce
    exact ⟨build_of_agree hagree, build_of_agree hagree.symm⟩
  · intro hkeys c g hreordered
    refine ⟨⟨?_, ?_⟩, ?_⟩
    · rintro ⟨request, hrequest⟩
      rcases build_of_reordered hkeys hreordered hrequest with ⟨request', hrequest', -⟩
      exact ⟨request', hrequest'⟩
    · rintro ⟨request, hrequest⟩
      rcases build_of_reordered (hreordered.keysDistinct hkeys) hreordered.symm hrequest with
        ⟨request', hrequest', -⟩
      exact ⟨request', hrequest'⟩
    · intro request request' hrequest hrequest'
      rcases build_of_reordered hkeys hreordered hrequest with ⟨found, hfound, hrearranged⟩
      cases hfound.symm.trans hrequest'
      exact hrearranged

/-- What is asked of people in `heatFilters`. -/
def heatPeople : List (Text × Value) := [("adult", .bool false)]

/-- What is asked of movies in `heatFilters`. -/
def heatMovies : List (Text × Value) := [("title", .text "Heat"), ("runtime_LT", .int 180)]

/-- Filters for movies, under the older name, and for people. -/
def heatFilters (movies : List (Text × Value)) : Filters :=
  .given (.map [("movie_filter", .map movies), ("person", .map heatPeople)])

/-- Sorted by category, `heatFilters` make the same request, and with the entries for movies in
reverse order a request with the same parameters. -/
theorem spelling_and_order_of_heatFilters :
    (heatFilters heatMovies).MapsOnce ∧ (heatFilters heatMovies).KeysDistinct ∧
      ∃ request request', build nodeVariable (.int 1) (.int 2) (heatFilters heatMovies) =
          .ok request ∧
        build nodeVariable (.int 1) (.int 2)
          (.sorted { person := .map heatPeople, movie := .map heatMovies }) = .ok request ∧
        build nodeVariable (.int 1) (.int 2) (heatFilters heatMovies.reverse) = .ok request' ∧
        Rearranged nodeVariable .movie request request' := by
  have honce : (heatFilters heatMovies).MapsOnce := by
    intro c
    cases c <;> decide
  have hkeys : (heatFilters heatMovies).KeysDistinct := by
    intro name entries hmem
    simp only [List.mem_cons, Prod.mk.injEq, Value.map.injEq, List.not_mem_nil, or_false] at hmem
    rcases hmem with ⟨-, rfl⟩ | ⟨-, rfl⟩ <;> decide
  let s : Selection := { person := .map heatPeople, movie := .map heatMovies }
  have hrespelled : Relation.EqvGen Filters.Respelled (heatFilters heatMovies) (.sorted s) := by
    let current : List (Text × Value) :=
      [("movie", .map heatMovies), ("person", .map heatPeople)]
    have hrenamed : Filters.Respelled (heatFilters heatMovies) (.given (.map current)) :=
      .renamed (c := .movie) (by decide) (by decide)
    have hnull : Filters.Respelled (.given (.map (("episode", .null) :: current)))
        (.given (.map current)) := .withoutNull (c := .episode) (by decide)
    have hwritten : Filters.Respelled (.given (.map s.written))
        (.given (.map (("episode", .null) :: current))) :=
      .permuted (List.reverse_perm ((Text.whole "episode", Value.null) :: current))
    have hsorted : Filters.Respelled (.given (.map s.written)) (.sorted s) := by
      apply Filters.Respelled.sorted
      intro c
      cases c with
      | person => exact Or.inr ⟨heatPeople, rfl⟩
      | movie => exact Or.inr ⟨heatMovies, rfl⟩
      | episode => exact Or.inl rfl
    have hcurrent := (Relation.EqvGen.rel _ _ hwritten).trans _ _ _ (.rel _ _ hnull)
    exact (Relation.EqvGen.rel _ _ hrenamed).trans _ _ _
      (hcurrent.symm.trans _ _ _ (.rel _ _ hsorted))
  have hreordered : Filters.Reordered .movie (heatFilters heatMovies)
      (heatFilters heatMovies.reverse) :=
    @Filters.Reordered.given .movie [] [("person", .map heatPeople)] "movie_filter" _ _ (by decide)
      (List.reverse_perm heatMovies).symm
  obtain ⟨request, hrequest⟩ : ∃ request,
      build nodeVariable (.int 1) (.int 2) (heatFilters heatMovies) = .ok request := ⟨_, rfl⟩
  rcases spelling_and_order_of_filters nodeVariable 1 2 (heatFilters heatMovies) with
    ⟨hspelling, horder⟩
  rcases horder hkeys .movie _ hreordered with ⟨hiff, hall⟩
  rcases hiff.mp ⟨request, hrequest⟩ with ⟨request', hrequest'⟩
  exact ⟨honce, hkeys, request, request', hrequest,
    (hspelling honce _ hrespelled request).mp hrequest, hrequest',
    hall request request' hrequest hrequest'⟩

end PathRequest

end Costar
