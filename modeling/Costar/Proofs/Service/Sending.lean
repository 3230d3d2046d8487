import Costar.Proofs.Connection.Settled
import Costar.Service.Framework

/-!
# Steps that can be sent

A step of a connection is sent as JSON if all properties of its parts are plain as JSON.  What is
added when a step is described, the names of types and the shows of episodes, stands in no one's
way, as long as the framework has room for it.

Main results:

- Structure `Service.Framework.Encodes`: what a value is plain as, where it is JSON.
- Theorem `Service.Framework.EncodesAll.exists_map`: a record of such values is plain as JSON.
- Structure `Step.Sendable`: steps all of whose properties are plain as JSON.
- Theorem `Step.Sendable.exists_triple`: such a step is plain as a step and as JSON.
-/

namespace Costar

/-! ## JSON -/

namespace Value

theorem areJson_iff {items : List Value} :
    areJson items = true ↔ ∀ v ∈ items, v.isJson = true := by
  induction items with
  | nil => simp [areJson]
  | cons v vs ih => rw [areJson, Bool.and_eq_true, ih, List.forall_mem_cons]

theorem entriesJson_iff {entries : Record} :
    entriesJson entries = true ↔ ∀ e ∈ entries, e.1.isWhole = true ∧ e.2.isJson = true := by
  induction entries with
  | nil => simp [entriesJson]
  | cons e es ih =>
      rw [entriesJson, Bool.and_eq_true, Bool.and_eq_true, ih, List.forall_mem_cons]

theorem itemsDepth_le_iff {items : List Value} {n : Nat} :
    itemsDepth items ≤ n ↔ ∀ v ∈ items, v.depth ≤ n := by
  induction items with
  | nil => simp [itemsDepth]
  | cons v vs ih => rw [itemsDepth, Nat.max_le, ih, List.forall_mem_cons]

theorem entriesDepth_le_iff {entries : Record} {n : Nat} :
    entriesDepth entries ≤ n ↔ ∀ e ∈ entries, e.2.depth ≤ n := by
  induction entries with
  | nil => simp [entriesDepth]
  | cons e es ih => rw [entriesDepth, Nat.max_le, ih, List.forall_mem_cons]

end Value

namespace Service.Framework

variable {F : Framework} {levels : Nat} {r : Record} {v w : Value}

/-- What a value is plain as, where that is JSON and there is room for both with some values around
them. -/
structure Encodes (F : Framework) (levels : Nat) (v w : Value) : Prop where
  encode : F.encode v = some w
  isJson : w.isJson = true
  room : v.depth + levels ≤ F.room
  room_encoded : w.depth + levels ≤ F.room

/-- Whether all entries of a record are plain as JSON, under whole names. -/
def EncodesAll (F : Framework) (levels : Nat) (r : Record) : Prop :=
  ∀ e ∈ r, e.1.isWhole = true ∧ ∃ w, F.Encodes levels e.2 w

theorem encodes_text (hF : F.Lawful) (hlevels : levels < F.room) (s : String) :
    F.Encodes levels (.text s) (.text s) where
  encode := hF.encode_text s
  isJson := rfl
  room := by
    simp only [Value.depth]
    omega
  room_encoded := by
    simp only [Value.depth]
    omega

theorem encodes_null (hF : F.Lawful) (hlevels : levels < F.room) :
    F.Encodes levels .null .null where
  encode := hF.encode_null
  isJson := rfl
  room := by
    simp only [Value.depth]
    omega
  room_encoded := by
    simp only [Value.depth]
    omega

/-- The results of a function that has one for every item. -/
theorem exists_mapM {α β : Type} {f : α → Option β} {P : β → Prop} {xs : List α}
    (h : ∀ x ∈ xs, ∃ y, f x = some y ∧ P y) :
    ∃ ys, xs.mapM f = some ys ∧ List.Forall₂ (fun x y => f x = some y) xs ys ∧ ∀ y ∈ ys, P y := by
  induction xs with
  | nil => exact ⟨[], rfl, .nil, List.forall_mem_nil _⟩
  | cons x xs ih =>
      rw [List.forall_mem_cons] at h
      rcases h.1 with ⟨y, hy, hP⟩
      rcases ih h.2 with ⟨ys, hys, hresults, hall⟩
      refine ⟨y :: ys, ?_, hresults.cons hy, List.forall_mem_cons.mpr ⟨hP, hall⟩⟩
      rw [List.mapM_cons, hy, hys]
      rfl

/-- A record whose entries are plain as JSON is plain as JSON. -/
theorem EncodesAll.exists_map (hF : F.Lawful) (h : F.EncodesAll (levels + 1) r)
    (hlevels : levels < F.room) : ∃ entries : Record, F.Encodes levels (.map r) (.map entries) := by
  have hdepth : Value.entriesDepth r ≤ F.room - (levels + 1) := by
    rw [Value.entriesDepth_le_iff]
    intro e he
    obtain ⟨-, w, hw⟩ := h e he
    exact Nat.le_sub_of_add_le hw.room
  have hroom : (Value.map r).depth + levels ≤ F.room := by
    rw [Value.depth]
    omega
  have hencoded : ∀ e ∈ r.filter fun e => F.keeps e.1, ∃ f : Text × Value,
      (F.encode e.2).map (fun v => (e.1, v)) = some f ∧
        (f.1.isWhole = true ∧ f.2.isJson = true) ∧ f.2.depth ≤ F.room - (levels + 1) := by
    intro e he
    obtain ⟨hwhole, w, hw⟩ := h e (List.mem_of_mem_filter he)
    refine ⟨(e.1, w), ?_, ⟨hwhole, hw.isJson⟩, Nat.le_sub_of_add_le hw.room_encoded⟩
    rw [hw.encode]
    rfl
  obtain ⟨entries, hentries, -, hall⟩ := exists_mapM hencoded
  refine ⟨entries, ?_, ?_, hroom, ?_⟩
  · rw [hF.encode_map r (Nat.le_of_add_right_le hroom), hentries]
    rfl
  · rw [Value.isJson, Value.entriesJson_iff]
    exact fun e he => (hall e he).1
  · have hentriesDepth : Value.entriesDepth entries ≤ F.room - (levels + 1) :=
      Value.entriesDepth_le_iff.mpr fun e he => (hall e he).2
    rw [Value.depth]
    omega

end Service.Framework

/-! ## Records -/

theorem Record.eq_or_mem_of_mem_put {r : Record} {name : Text} {v : Value} {e : Text × Value}
    (h : e ∈ r.put name v) : e = (name, v) ∨ e ∈ r := by
  induction r with
  | nil => exact Or.inl (List.mem_singleton.mp h)
  | cons first rest ih =>
      rcases first with ⟨k, w⟩
      unfold put at h
      split at h
      · rename_i hk
        rcases List.mem_cons.mp h with rfl | hrest
        · exact Or.inl (by rw [hk])
        · exact Or.inr (List.mem_cons_of_mem _ hrest)
      · rcases List.mem_cons.mp h with rfl | hrest
        · exact Or.inr List.mem_cons_self
        · exact (ih hrest).imp_right (List.mem_cons_of_mem _)

namespace Service.Framework.EncodesAll

variable {F : Framework} {levels : Nat} {r entries : Record} {name : Text} {v w : Value}

/-- An entry that is plain as JSON may be put into a record. -/
theorem put (h : F.EncodesAll levels r) (hname : name.isWhole = true) (hv : F.Encodes levels v w) :
    F.EncodesAll levels (r.put name v) := by
  intro e he
  rcases Record.eq_or_mem_of_mem_put he with rfl | he
  · exact ⟨hname, w, hv⟩
  · exact h e he

theorem merge (h : F.EncodesAll levels r) (hentries : F.EncodesAll levels entries) :
    F.EncodesAll levels (r.merge entries) := by
  induction entries generalizing r with
  | nil => exact h
  | cons e rest ih =>
      obtain ⟨hname, w, hw⟩ := hentries e List.mem_cons_self
      refine ih (h.put hname hw) ?_
      intro f hf
      exact hentries f (List.mem_cons_of_mem _ hf)

/-- The name of a type may stand in front of a record. -/
theorem typed (hF : F.Lawful) (hlevels : levels < F.room) (h : F.EncodesAll levels r)
    (type : String) : F.EncodesAll levels (r.typed type) := by
  refine merge ?_ h
  intro e he
  obtain rfl := List.mem_singleton.mp he
  exact ⟨rfl, _, encodes_text hF hlevels type⟩

end Service.Framework.EncodesAll

/-! ## Steps -/

open Service

/-- Whether all properties of the parts of a step are plain as JSON.  Four values stand around those
of a person, a credit or a project: the record, the step, the list of steps and the content of the
reply.  A show is sent inside its episode. -/
structure Step.Sendable (F : Framework) (s : Step) : Prop where
  person : F.EncodesAll 4 s.person
  credit : F.EncodesAll 4 s.credit.properties
  project : F.EncodesAll 4 s.project.properties
  parent : ∀ r properties, s.project = .episode r (.found properties) → F.EncodesAll 5 properties

/-- Whether all properties in a connection are plain as JSON. -/
def Connection.Sendable (F : Framework) (c : Connection) : Prop :=
  ∀ s ∈ c.steps, s.Sendable F

namespace Step

variable {F : Framework} {s : Step} {r : Record}

theorem Sendable.describe_project (hF : F.Lawful) (h : s.Sendable F)
    (hr : s.project.describe = .ok r) : F.EncodesAll 4 r := by
  have hroom : 4 < F.room := hF.room_le
  have hproject := h.project
  have hparent := h.parent
  generalize s.project = p at hr hproject hparent
  have hepisode : F.EncodesAll 4 (Record.typed "TvEpisode" p.properties) :=
    hproject.typed hF hroom "TvEpisode"
  cases p with
  | movie properties =>
      cases hr
      exact hproject.typed hF hroom "Movie"
  | episode properties parent =>
      cases parent with
      | pending => cases hr
      | absent =>
          cases hr
          exact hepisode.put rfl (Framework.encodes_null hF hroom)
      | found shown =>
          cases hr
          obtain ⟨entries, hentries⟩ := (hparent properties shown rfl).exists_map hF hroom
          exact hepisode.put rfl hentries

/-- One value stands around the parts of a step. -/
theorem depth_parts {person relationship project : Record} {n : Nat}
    (hperson : (Value.map person).depth + 3 ≤ n)
    (hrelationship : (Value.map relationship).depth + 3 ≤ n)
    (hproject : (Value.map project).depth + 3 ≤ n) :
    (Value.map [("person", .map person), ("relationship", .map relationship),
      ("project", .map project)]).depth + 2 ≤ n := by
  simp only [Value.depth, Value.entriesDepth] at *
  omega

/-- A step whose properties are plain as JSON is plain as a step and as JSON. -/
theorem Sendable.exists_triple (hF : F.Lawful) (h : s.Sendable F) (hr : s.describe = .ok r) :
    ∃ v, F.Encodes 2 (.map r) v ∧ Content.IsTriple v := by
  have hroom := hF.room_le
  rcases Failure.bind_eq_ok.mp hr with ⟨project, hproject, hr⟩
  cases hr
  obtain ⟨p, hp⟩ := h.person.exists_map hF (by omega)
  obtain ⟨c, hc⟩ : ∃ c : Record, F.Encodes 3 (.map s.credit.describe) (.map c) :=
    (h.credit.typed hF (by omega) s.credit.typeName).exists_map hF (by omega)
  obtain ⟨q, hq⟩ := (h.describe_project hF hproject).exists_map hF (by omega)
  have hdepth := depth_parts hp.room hc.room hq.room
  refine ⟨.map [("person", .map p), ("relationship", .map c), ("project", .map q)],
    ⟨?_, ?_, hdepth, depth_parts hp.room_encoded hc.room_encoded hq.room_encoded⟩, p, c, q, rfl⟩
  · have hnames := hF.keeps_own
    simp only [ownNames, List.forall_mem_cons] at hnames
    rw [hF.encode_map _ (Nat.le_of_add_right_le hdepth)]
    simp [hnames.1, hnames.2.1, hnames.2.2.1, hp.encode, hc.encode, hq.encode]
  · have hmaps := And.intro hp.isJson (And.intro hc.isJson hq.isJson)
    simpa [Value.isJson, Value.entriesJson, Text.isWhole] using hmaps

end Step

end Costar
