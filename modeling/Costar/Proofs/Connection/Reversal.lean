import Costar.Proofs.Connection.Sharing
import Costar.Proofs.Graph.StoredPath
import Mathlib.Data.List.Chain

/-!
# Paths walked the other way

Which way the relationships of a path point is looked at only to see whether they join the nodes of
their segments, so it has no influence on what comes of the path.  Which way the path itself is
walked decides in which order its segments are checked and which of several nodes with one id
describes a person or a project.  Where nodes with one id agree, neither matters: whether every
segment passes every check can be told without an order, and what is described is equal.

Main results:

- Theorem `Connection.ofPath_turned`: a path may have any of its relationships turned around.
- Definition `Path.Consistent`: paths whose nodes agree wherever they have the same id.
- Theorem `Path.Consistent.sound_iff`: such a path is sound when its segments are proper, each on
  its own, and form a chain.
- Structure `Connection.Reverses`: two connections that show the same in opposite orders.
- Theorem `Connection.direction_irrelevant`: what comes of a path and of the path walked the other
  way.
-/

namespace Costar

/-! ## Turned relationships -/

namespace Segment

/-- The segment with its relationship pointing the other way. -/
def turned (s : Segment) : Segment :=
  { s with relationship :=
    { s.relationship with start := s.relationship.finish, finish := s.relationship.start } }

theorem isJoined_turned (s : Segment) : s.turned.isJoined = s.isJoined := by
  rw [Bool.eq_iff_iff, @isJoined_iff [], @isJoined_iff []]
  simp only [Passes, turned, Set.pair_comm]

theorem split_turned (index : Int) (s : Segment) : s.turned.split index = s.split index := by
  have hroles : s.turned.roles? = s.roles? := rfl
  unfold split
  rw [isJoined_turned, hroles]
  rfl

end Segment

namespace Path

/-- The path with some of its relationships, by position, pointing the other way. -/
def turned (which : Nat → Bool) (p : Path) : Path :=
  p.mapIdx fun i s => if which i then s.turned else s

/-- Whether two lists of segments differ only in which way relationships point. -/
def Undirected : List Segment → List Segment → Prop :=
  List.Forall₂ fun s t => t = s ∨ t = s.turned

theorem undirected_turned (which : Nat → Bool) (p : Path) : Undirected p (p.turned which) := by
  induction p generalizing which with
  | nil => exact List.Forall₂.nil
  | cons s rest ih =>
      rw [turned, List.mapIdx_cons]
      refine List.Forall₂.cons ?_ (ih fun i => which (i + 1))
      split
      · exact Or.inr rfl
      · exact Or.inl rfl

end Path

namespace Draft

/-- Which way relationships point makes no difference when a segment is added. -/
theorem add_turned (d : Draft) (index : Nat) {previous previous' : Option Segment}
    (hprevious : previous'.map (·.finish.id) = previous.map (·.finish.id)) {s t : Segment}
    (h : t = s ∨ t = s.turned) : d.add index previous' t = d.add index previous s := by
  have hcontinues : checkContinues index previous' t = checkContinues index previous s := by
    have hstart : t.start.id = s.start.id := by
      rcases h with rfl | rfl <;> rfl
    unfold checkContinues
    rw [hstart]
    cases previous <;> cases previous' <;> simp_all
  have hsplit : t.split index = s.split index := by
    rcases h with rfl | rfl
    · rfl
    · exact s.split_turned index
  have hproperties : t.relationship.properties = s.relationship.properties := by
    rcases h with rfl | rfl <;> rfl
  unfold add
  rw [hcontinues, hsplit, hproperties]

theorem addAll_undirected {p q : List Segment} (h : Path.Undirected p q) (d : Draft) (index : Nat)
    {previous previous' : Option Segment}
    (hprevious : previous'.map (·.finish.id) = previous.map (·.finish.id)) :
    d.addAll index previous' q = d.addAll index previous p := by
  induction h generalizing d index previous previous' with
  | nil => rfl
  | @cons s t _ _ hst _ ih =>
      have hfinish : (some t).map (·.finish.id) = (some s).map (·.finish.id) := by
        rcases hst with rfl | rfl <;> rfl
      rw [addAll, addAll, add_turned d index hprevious hst]
      exact congrArg _ (funext fun e => ih e (index + 1) hfinish)

end Draft

/-- A path may have any of its relationships turned around: what comes of it is the same, be it a
connection or a failure. -/
theorem Connection.ofPath_turned (which : Nat → Bool) (p : Path) :
    ofPath (p.turned which) = ofPath p := by
  have h := Path.undirected_turned which p
  cases p with
  | nil => rfl
  | cons s rest =>
      have hne : Path.turned which (s :: rest) ≠ [] := by
        simp [Path.turned]
      rw [ofPath_of_ne_nil hne, ofPath_of_ne_nil (List.cons_ne_nil s rest),
        Draft.addAll_undirected h {} 0 rfl]

/-! ## Paths whose nodes agree -/

/-- The two nodes of a segment. -/
def Segment.ends (s : Segment) : List Node :=
  [s.start, s.finish]

/-- Whether the nodes of a path agree wherever they have the same id. -/
def Path.Consistent (p : Path) : Prop :=
  ∀ m ∈ p.flatMap Segment.ends, ∀ n ∈ p.flatMap Segment.ends, m.id = n.id → m.Agrees n

/-- Of equal values none or both are null. -/
theorem Value.isNull_eq_of_same {v w : Value} (h : v.same w = true) : v.isNull = w.isNull := by
  cases v with
  | null =>
      have hw : w.isNull = true := by simpa [same] using h
      rw [hw]
      rfl
  | _ =>
      cases w with
      | null => simp [same, sameNumber, wholeNumber?, sameDay, sameTime] at h
      | _ => rfl

namespace Record

variable {r s : Record}

/-- Records that agree have values under the same names. -/
theorem Agrees.populates_eq (h : r.Agrees s) : r.populates = s.populates := by
  funext key
  have hrel := h key
  unfold populates
  generalize r.get? key = a at hrel ⊢
  generalize s.get? key = b at hrel ⊢
  cases hrel with
  | none => rfl
  | some hvw =>
      rcases hvw with rfl | hvw
      · rfl
      · exact congrArg not (Value.isNull_eq_of_same hvw)

theorem Agrees.tellsProject (h : r.Agrees s) (hr : r.TellsProject) : s.TellsProject := by
  unfold TellsProject at hr ⊢
  rwa [← h.populates_eq]

end Record

namespace Segment

variable {s : Segment} {person project : Node}

theorem HasRoles.mem_ends (h : s.HasRoles person project) :
    person ∈ s.ends ∧ project ∈ s.ends := by
  rcases h.ends with ⟨rfl, rfl⟩ | ⟨rfl, rfl⟩ <;> simp [Segment.ends]

/-- Whether a segment passes every check that can be made on it alone. -/
structure Proper (s : Segment) : Prop where
  labels : ∃ person project, s.HasRoles person project
  creditType : s.relationship.type ∈ creditTypes
  ends : ({s.relationship.start, s.relationship.finish} : Set String) = {s.start.id, s.finish.id}
  project : ∀ person project, s.HasRoles person project → project.properties.TellsProject
  credit : s.relationship.properties.TellsCredit

/-- Where the projects of the segments before it tell what they are, a segment passes all checks if
it is proper and continues from them. -/
theorem passes_iff_proper {earlier : List Segment}
    (h : ∀ t ∈ earlier, ∀ p q person project, t.HasRoles p q → s.HasRoles person project →
      q.id = project.id → project.properties.TellsProject) :
    (∀ check, s.Passes earlier check) ↔
      (∀ t, earlier.getLast? = some t → s.start.id = t.finish.id) ∧ s.Proper := by
  constructor
  · intro hall
    refine ⟨hall .continues, hall .labels, hall .creditType, hall .ends, ?_, hall .credit⟩
    intro person project hroles
    rcases (passes_project_iff hroles).mp (hall .project) with ⟨t, ht, p, q, hroles', hid⟩ | htells
    · exact h t ht p q person project hroles' hroles hid
    · exact htells
  · rintro ⟨hcontinues, hproper⟩ check
    cases check with
    | continues => exact hcontinues
    | labels => exact hproper.labels
    | creditType => exact hproper.creditType
    | ends => exact hproper.ends
    | project => exact fun person project hroles => Or.inr (hproper.project person project hroles)
    | credit => exact hproper.credit

end Segment

namespace Path

/-- Whether each segment of a path starts where the one before it ends. -/
def Chained (p : Path) : Prop :=
  p.IsChain fun s t => t.start.id = s.finish.id

theorem chained_concat {p : Path} {s : Segment} :
    Chained (p ++ [s]) ↔ p.Chained ∧ ∀ t, p.getLast? = some t → s.start.id = t.finish.id := by
  unfold Chained
  rw [List.isChain_append]
  simp [Option.mem_def]

theorem Consistent.of_append {p q : Path} (h : Consistent (p ++ q)) : p.Consistent := by
  intro m hm n hn
  rw [Consistent, List.flatMap_append] at h
  exact h m (List.mem_append_left _ hm) n (List.mem_append_left _ hn)

/-- A path whose nodes agree is sound when its segments are proper and form a chain. -/
theorem Consistent.sound_iff {p : Path} (h : p.Consistent) :
    p.Sound ↔ p.Chained ∧ ∀ s ∈ p, s.Proper := by
  induction p using List.reverseRecOn with
  | nil => exact iff_of_true sound_nil ⟨List.IsChain.nil, List.forall_mem_nil _⟩
  | append_singleton p s ih =>
      rw [sound_concat, ih h.of_append, chained_concat, List.forall_mem_append,
        List.forall_mem_singleton]
      have hpasses (hp : ∀ t ∈ p, t.Proper) := @Segment.passes_iff_proper s p <| by
        intro t ht q r person project hroles hroles' hid
        have hr : r ∈ (p ++ [s]).flatMap Segment.ends :=
          List.mem_flatMap.mpr ⟨t, List.mem_append_left _ ht, hroles.mem_ends.2⟩
        have hproject : project ∈ (p ++ [s]).flatMap Segment.ends :=
          List.mem_flatMap.mpr ⟨s, by simp, hroles'.mem_ends.2⟩
        exact (h r hr project hproject hid).properties.tellsProject ((hp t ht).project q r hroles)
      constructor
      · rintro ⟨⟨hchain, hp⟩, hall⟩
        rcases (hpasses hp).mp hall with ⟨hcontinues, hs⟩
        exact ⟨⟨hchain, hcontinues⟩, hp, hs⟩
      · rintro ⟨⟨hchain, hcontinues⟩, hp, hs⟩
        exact ⟨⟨hchain, hp⟩, (hpasses hp).mpr ⟨hcontinues, hs⟩⟩

end Path

/-! ## Reversed paths -/

/-- The segment walked the other way. -/
def Segment.reversed (s : Segment) : Segment :=
  { s with start := s.finish, finish := s.start }

/-- The path walked the other way. -/
def Path.reversed (p : Path) : Path :=
  (p.map Segment.reversed).reverse

namespace Segment

variable {s : Segment} {person project : Node}

theorem hasRoles_reversed : s.reversed.HasRoles person project ↔ s.HasRoles person project := by
  constructor <;> exact fun h => ⟨h.ends.symm, h.person, h.project⟩

theorem proper_reversed : s.reversed.Proper ↔ s.Proper := by
  have hnodes : ({s.reversed.start.id, s.reversed.finish.id} : Set String) =
      {s.start.id, s.finish.id} := Set.pair_comm _ _
  constructor
  · rintro ⟨hlabels, htype, hends, hproject, hcredit⟩
    simp only [hasRoles_reversed] at hlabels hproject
    exact ⟨hlabels, htype, hends.trans hnodes, hproject, hcredit⟩
  · rintro ⟨hlabels, htype, hends, hproject, hcredit⟩
    simp only [← hasRoles_reversed (s := s)] at hlabels hproject
    exact ⟨hlabels, htype, hends.trans hnodes.symm, hproject, hcredit⟩

end Segment

namespace Path

variable {p : Path}

theorem reversed_ne_nil : p.reversed ≠ [] ↔ p ≠ [] := by
  simp [reversed]

theorem mem_nodes_reversed {n : Node} :
    n ∈ p.reversed.flatMap Segment.ends ↔ n ∈ p.flatMap Segment.ends := by
  have hends (s : Segment) : n ∈ s.reversed.ends ↔ n ∈ s.ends := by
    simp [Segment.ends, Segment.reversed, or_comm]
  simp [reversed, hends]

theorem Consistent.reversed (h : p.Consistent) : p.reversed.Consistent := by
  intro m hm n hn
  exact h m (mem_nodes_reversed.mp hm) n (mem_nodes_reversed.mp hn)

theorem chained_reversed : p.reversed.Chained ↔ p.Chained := by
  unfold Chained Path.reversed
  rw [List.isChain_reverse, List.isChain_map]
  simp only [Segment.reversed, eq_comm]

/-- A path whose nodes agree is sound when it is sound the other way. -/
theorem Consistent.sound_reversed (h : p.Consistent) : p.reversed.Sound ↔ p.Sound := by
  have hproper : (∀ s ∈ p.reversed, s.Proper) ↔ ∀ s ∈ p, s.Proper := by
    simp [Path.reversed, Segment.proper_reversed]
  rw [h.sound_iff, h.reversed.sound_iff, chained_reversed, hproper]

/-- The segment at a position from the other end of a reversed path. -/
theorem getElem?_reversed {i : Nat} (hi : i < p.length) :
    p.reversed[i]? = p[p.length - 1 - i]?.map Segment.reversed := by
  unfold Path.reversed
  rw [List.getElem?_reverse (by rwa [List.length_map]), List.length_map, List.getElem?_map]

theorem mem_nodes_of_mem_people {n : Node} (h : n ∈ p.people) : n ∈ p.flatMap Segment.ends := by
  rcases List.mem_filterMap.mp h with ⟨s, hs, hn⟩
  rcases Option.map_eq_some_iff.mp hn with ⟨⟨person, project⟩, hroles, rfl⟩
  exact List.mem_flatMap.mpr ⟨s, hs, (Segment.roles?_eq_some_iff.mp hroles).mem_ends.1⟩

theorem mem_nodes_of_mem_projects {n : Node} (h : n ∈ p.projects) :
    n ∈ p.flatMap Segment.ends := by
  rcases List.mem_filterMap.mp h with ⟨s, hs, hn⟩
  rcases Option.map_eq_some_iff.mp hn with ⟨⟨person, project⟩, hroles, rfl⟩
  exact List.mem_flatMap.mpr ⟨s, hs, (Segment.roles?_eq_some_iff.mp hroles).mem_ends.2⟩

/-- Nodes of one id that are found in a path and in the path walked the other way agree. -/
theorem Consistent.agrees_of_find? (h : p.Consistent) {nodes nodes' : List Node} {id : String}
    {m n : Node} (hm : nodes.find? (·.id == id) = some m) (hn : nodes'.find? (·.id == id) = some n)
    (hnodes : ∀ a ∈ nodes, a ∈ p.flatMap Segment.ends)
    (hnodes' : ∀ a ∈ nodes', a ∈ p.reversed.flatMap Segment.ends) : m.Agrees n := by
  have hmid : m.id = id := by simpa using List.find?_some hm
  have hnid : n.id = id := by simpa using List.find?_some hn
  exact h m (hnodes m (List.mem_of_find?_eq_some hm)) n
    (mem_nodes_reversed.mp (hnodes' n (List.mem_of_find?_eq_some hn))) (hmid.trans hnid.symm)

end Path

/-! ## Equal steps -/

/-- Whether two projects are equal: of the same type, with equal properties, and if they are
episodes, both waiting for their shows. -/
inductive Project.Agrees : Project → Project → Prop where
  | movie {r s : Record} : r.Agrees s → Agrees (.movie r) (.movie s)
  | episode {r s : Record} : r.Agrees s → Agrees (.episode r .pending) (.episode s .pending)

/-- Records that agree describe equal projects. -/
theorem Record.Agrees.project {r s : Record} (h : r.Agrees s) {p q : Project}
    (hp : Project.ofRecord r = .ok p) (hq : Project.ofRecord s = .ok q) : p.Agrees q := by
  unfold Project.ofRecord at hp hq
  rw [h.populates_eq] at hp
  split at hp
  · rename_i hmovie
    rw [if_pos hmovie] at hq
    cases hp
    cases hq
    exact .movie h
  · rename_i hmovie
    rw [if_neg hmovie] at hq
    split at hp
    · rename_i hepisode
      rw [if_pos hepisode] at hq
      cases hp
      cases hq
      exact .episode h
    · cases hp

/-- Whether two steps have equal people, credits and projects. -/
structure Step.Agrees (a b : Step) : Prop where
  person : Record.Agrees a.person b.person
  credit : a.credit = b.credit
  project : a.project.Agrees b.project

namespace Connection

/-- Whether a connection shows the steps of another in the opposite order, and the same pairs of
triples share their person and their project. -/
structure Reverses (d c : Connection) : Prop where
  steps : List.Forall₂ Step.Agrees c.steps.reverse d.steps
  samePerson : ∀ {i j : Nat} {t t' u u' : Triple}, c.triples.reverse[i]? = some t →
    c.triples.reverse[j]? = some t' → d.triples[i]? = some u → d.triples[j]? = some u' →
      (u.person = u'.person ↔ t.person = t'.person)
  sameProject : ∀ {i j : Nat} {t t' u u' : Triple}, c.triples.reverse[i]? = some t →
    c.triples.reverse[j]? = some t' → d.triples[i]? = some u → d.triples[j]? = some u' →
      (u.project = u'.project ↔ t.project = t'.project)

variable {p : Path} {c d : Connection}

/-- Triples that stand for a segment and for the segment walked the other way are equal steps. -/
theorem Stands.agrees (hp : p.Consistent) {s : Segment} {t u : Triple} {m n q r : Node}
    (ht : c.Stands p s t m q) (hu : d.Stands p.reversed s.reversed u n r) :
    (c.step t).Agrees (d.step u) := by
  rcases ht.roles.unique (Segment.hasRoles_reversed.mp hu.roles) with ⟨rfl, rfl⟩
  have hpeople {path : Path} : ∀ a ∈ path.people, a ∈ path.flatMap Segment.ends :=
    fun _ => Path.mem_nodes_of_mem_people
  have hprojects {path : Path} : ∀ a ∈ path.projects, a ∈ path.flatMap Segment.ends :=
    fun _ => Path.mem_nodes_of_mem_projects
  constructor
  case person =>
    rcases ht.person with ⟨a, ha, hta⟩
    rcases hu.person with ⟨b, hb, hub⟩
    unfold step
    rw [hta, hub]
    exact (hp.agrees_of_find? ha hb hpeople hpeople).properties
  case credit =>
    have ht' : Credit.ofRecord s.relationship.properties = .ok t.credit :=
      Credit.ofRecord_eq_ok.mpr ht.credit
    have hu' : Credit.ofRecord s.relationship.properties = .ok u.credit :=
      Credit.ofRecord_eq_ok.mpr hu.credit
    exact Except.ok.inj (ht'.symm.trans hu')
  case project =>
    rcases ht.project with ⟨a, x, ha, hax, -, htx⟩
    rcases hu.project with ⟨b, y, hb, hby, -, huy⟩
    unfold step
    rw [htx, huy]
    exact (hp.agrees_of_find? ha hb hprojects hprojects).properties.project hax hby

/-- A triple, counted from the end, stands for a segment that the path walked the other way has at
the same position from its start. -/
theorem Mirrors.exists_segment (hc : c.Mirrors p) {i : Nat} {t : Triple}
    (ht : c.triples.reverse[i]? = some t) :
    ∃ s m q, p[p.length - 1 - i]? = some s ∧ p.reversed[i]? = some s.reversed ∧
      c.triples[p.length - 1 - i]? = some t ∧ c.Stands p s t m q := by
  have hi : i < p.length := by
    rw [← hc.length, ← List.length_reverse]
    exact (List.getElem?_eq_some_iff.mp ht).1
  have hlt : p.length - 1 - i < p.length := by omega
  rw [List.getElem?_reverse (by rwa [hc.length]), hc.length] at ht
  have hs : p[p.length - 1 - i]? = some p[p.length - 1 - i] := List.getElem?_eq_getElem hlt
  rcases hc.stands hs ht with ⟨m, q, hstands⟩
  refine ⟨p[p.length - 1 - i], m, q, hs, ?_, ht, hstands⟩
  rw [Path.getElem?_reversed hi, hs]
  rfl

/-- The connection of a path walked the other way reverses that of the path. -/
theorem Mirrors.reverses (hp : p.Consistent) (hc : c.Mirrors p) (hd : d.Mirrors p.reversed) :
    d.Reverses c := by
  constructor
  case steps =>
    unfold steps
    rw [← List.map_reverse, List.forall₂_map_left_iff, List.forall₂_map_right_iff,
      List.forall₂_iff_get]
    refine ⟨?_, ?_⟩
    · rw [List.length_reverse, hc.length, hd.length]
      simp [Path.reversed]
    · intro i hi hi'
      rcases hc.exists_segment (List.getElem?_eq_getElem hi) with ⟨s, m, q, -, hsr, -, hcs⟩
      rcases hd.stands hsr (List.getElem?_eq_getElem hi') with ⟨n, r, hds⟩
      exact hcs.agrees hp hds
  case samePerson =>
    intro i j t t' u u' ht ht' hu hu'
    rcases hc.exists_segment ht with ⟨s, m, q, hs, hsr, ht, hm⟩
    rcases hc.exists_segment ht' with ⟨s', n, r, hs', hsr', ht', hn⟩
    rw [hc.samePerson hs hs' ht ht' hm.roles hn.roles]
    exact hd.samePerson hsr hsr' hu hu' (Segment.hasRoles_reversed.mpr hm.roles)
      (Segment.hasRoles_reversed.mpr hn.roles)
  case sameProject =>
    intro i j t t' u u' ht ht' hu hu'
    rcases hc.exists_segment ht with ⟨s, m, q, hs, hsr, ht, hm⟩
    rcases hc.exists_segment ht' with ⟨s', n, r, hs', hsr', ht', hn⟩
    rw [hc.sameProject hs hs' ht ht' hm.roles hn.roles]
    exact hd.sameProject hsr hsr' hu hu' (Segment.hasRoles_reversed.mpr hm.roles)
      (Segment.hasRoles_reversed.mpr hn.roles)

theorem exists_ofPath_reversed (hp : p.Consistent) :
    (∃ d, ofPath p.reversed = .ok d) ↔ ∃ c, ofPath p = .ok c := by
  rw [exists_ofPath_iff, exists_ofPath_iff, Path.reversed_ne_nil, hp.sound_reversed]

/-- Which way a path whose nodes agree is walked does not matter.  Any of its relationships may
point the other way without a change to what comes of it; and it is accepted when the path walked
the other way is, which then shows equal steps in the opposite order, and the same of them share
their people and their projects. -/
theorem direction_irrelevant (hp : p.Consistent) :
    (∀ which, ofPath (p.turned which) = ofPath p) ∧
      ((∃ d, ofPath p.reversed = .ok d) ↔ ∃ c, ofPath p = .ok c) ∧
      ∀ c d, ofPath p = .ok c → ofPath p.reversed = .ok d → d.Reverses c := by
  refine ⟨fun which => ofPath_turned which p, exists_ofPath_reversed hp, ?_⟩
  intro c d hc hd
  exact (mirrors_of_ofPath hc).reverses hp (mirrors_of_ofPath hd)

/-- A path from one person to another and back, through one movie. -/
def thereAndBack : Path :=
  let anna : Node := ⟨"a", [Label.person], [("person_id", .int 1)]⟩
  let film : Node := ⟨"b", [Label.movie], [("movie_id", .int 7)]⟩
  let carl : Node := ⟨"c", [Label.person], [("person_id", .int 2)]⟩
  let cast : Relationship := ⟨"r", "CAST_FOR", "a", "b", [("character", .text "Nora")]⟩
  let crew : Relationship := ⟨"s", "CREW_FOR", "c", "b", [("department", .text "Sound")]⟩
  [⟨anna, cast, film⟩, ⟨film, crew, carl⟩, ⟨carl, crew, film⟩]

/-- The nodes of `thereAndBack` agree, so walked the other way it is accepted too, and begins with
what it ended with. -/
theorem direction_irrelevant_thereAndBack :
    thereAndBack.Consistent ∧ ∃ c d, ofPath thereAndBack = .ok c ∧
      ofPath thereAndBack.reversed = .ok d ∧ d.Reverses c ∧
      c.triples.map (·.person) = [0, 1, 1] ∧ d.triples.map (·.person) = [0, 0, 1] := by
  have hp : thereAndBack.Consistent := by
    intro m hm n hn hid
    obtain rfl : m = n := by
      simp [thereAndBack, Segment.ends] at hm hn
      rcases hm with rfl | rfl | rfl | rfl <;> rcases hn with rfl | rfl | rfl | rfl <;> simp_all
    exact Node.Agrees.refl m
  obtain ⟨c, hc, hpeople⟩ : ∃ c, ofPath thereAndBack = .ok c ∧
      c.triples.map (·.person) = [0, 1, 1] := ⟨_, rfl, rfl⟩
  obtain ⟨d, hd, hpeople'⟩ : ∃ d, ofPath thereAndBack.reversed = .ok d ∧
      d.triples.map (·.person) = [0, 0, 1] := ⟨_, rfl, rfl⟩
  exact ⟨hp, c, d, hc, hd, (direction_irrelevant hp).2.2 c d hc hd, hpeople, hpeople'⟩

end Connection

end Costar
