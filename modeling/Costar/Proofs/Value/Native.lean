import Costar.Graph.Queries
import Costar.Proofs.Graph.StoredPath
import Costar.Proofs.Search.Found

/-!
# Native values

Among the values of a property the store may have temporal values of its own, also inside lists.
Nothing that a query hands on does: such a value has become a date, or a date and time, at the place
at which it stood, and everything else is as it was.

Main results:

- Theorem `Value.converts_iff`: what a value of the store becomes, place by place.
- Theorem `Value.IsNative.toNative_eq`: a native value does not change.
- Theorem `Record.madeNative_toNative`: a record keeps its names, and its values become native.
- Theorem `Access.holdsNative`: so it is with all that queries hand on.
-/

namespace Costar

/-! ## Values that are lists of lists -/

namespace Value

/-- Whether a value is neither one of the store's own temporal values nor made of other values. -/
def isPlain : Value → Bool
  | .null | .bool _ | .int _ | .float _ | .text _ | .bytes _ | .date _ | .dateTime _ => true
  | _ => false

/-- Whether a value is one of the store's own temporal values. -/
def isTemporal : Value → Bool
  | .graphDate _ | .graphDateTime _ => true
  | _ => false

/-- A value of a kind, or a list of such values, nested to any depth. -/
inductive Nested (kind : Value → Bool) : Value → Prop where
  | leaf {v : Value} (h : kind v = true) : Nested kind v
  | list {items : List Value} (h : ∀ v ∈ items, Nested kind v) : Nested kind (.list items)

/-- What the store keeps in a property: plain values, temporal ones, and lists of them. -/
abbrev Storable : Value → Prop :=
  Nested fun v => v.isPlain || v.isTemporal

/-- What is left of it: plain values and lists of them. -/
abbrev IsNative : Value → Prop :=
  Nested isPlain

/-- That a value becomes another by the replacement of each temporal value in it by the date, or
the date and time, that it stands for.  Lists keep their lengths, and their items their places. -/
inductive Converts : Value → Value → Prop where
  | plain {v : Value} (h : v.isPlain = true) : Converts v v
  | date (d : Date) : Converts (.graphDate d) (.date d)
  | dateTime (t : DateTime) : Converts (.graphDateTime t) (.dateTime t)
  | list {vs ws : List Value} (hlength : ws.length = vs.length)
      (hitems : ∀ (i : Nat) (v w : Value), vs[i]? = some v → ws[i]? = some w → Converts v w) :
      Converts (.list vs) (.list ws)

theorem storable_list {items : List Value} :
    (list items).Storable ↔ ∀ v ∈ items, v.Storable := by
  constructor
  · intro h
    cases h with
    | leaf h => cases h
    | list h => exact h
  · exact .list

theorem toNative_of_isPlain {v : Value} (h : v.isPlain = true) : v.toNative = v := by
  cases v <;> first | rfl | cases h

theorem isPlain_toNative {v : Value} (h : (v.isPlain || v.isTemporal) = true) :
    v.toNative.isPlain = true := by
  cases v <;> first | rfl | cases h

/-- A native value does not change. -/
theorem IsNative.toNative_eq {v : Value} (h : v.IsNative) : v.toNative = v := by
  induction h with
  | leaf h => exact toNative_of_isPlain h
  | @list items _ ih =>
      have hitems : items.map toNative = items :=
        (List.map_congr_left ih).trans (List.map_id' items)
      rw [toNative_list, hitems]

theorem Storable.converts_toNative {v : Value} (h : v.Storable) : v.Converts v.toNative := by
  induction h with
  | @leaf v h =>
      rcases Bool.or_eq_true_iff.mp h with hplain | htemporal
      · rw [toNative_of_isPlain hplain]
        exact .plain hplain
      · cases v with
        | graphDate d => exact .date d
        | graphDateTime t => exact .dateTime t
        | _ => cases htemporal
  | @list items _ ih =>
      rw [toNative_list]
      refine .list (List.length_map toNative) ?_
      intro i v w hv hw
      rw [List.getElem?_map, hv] at hw
      cases hw
      exact ih v (List.mem_of_getElem? hv)

/-- No temporal value of the store is left. -/
theorem Storable.isNative_toNative {v : Value} (h : v.Storable) : v.toNative.IsNative := by
  induction h with
  | leaf h => exact .leaf (isPlain_toNative h)
  | list _ ih =>
      rw [toNative_list]
      refine .list ?_
      intro w hw
      rcases List.mem_map.mp hw with ⟨v, hv, rfl⟩
      exact ih v hv

namespace Converts

variable {v w : Value}

theorem storable (h : v.Converts w) : v.Storable := by
  induction h with
  | plain h => exact .leaf (Bool.or_eq_true_iff.mpr (Or.inl h))
  | date => exact .leaf rfl
  | dateTime => exact .leaf rfl
  | list hlength _ ih =>
      refine .list ?_
      intro v hv
      rcases List.getElem?_of_mem hv with ⟨i, hi⟩
      have hlt := (List.getElem?_eq_some_iff.mp hi).1
      exact ih i v _ hi (List.getElem?_eq_getElem (hlength ▸ hlt))

/-- There is only one value that a value becomes. -/
theorem eq_toNative (h : v.Converts w) : w = v.toNative := by
  induction h with
  | plain h => exact (toNative_of_isPlain h).symm
  | date => rfl
  | dateTime => rfl
  | @list vs ws hlength _ ih =>
      have hitems : ws = vs.map toNative := by
        apply List.ext_getElem (by rw [hlength, List.length_map])
        intro i hw hv
        rw [List.length_map] at hv
        rw [List.getElem_map]
        exact ih i _ _ (List.getElem?_eq_getElem hv) (List.getElem?_eq_getElem hw)
      rw [toNative_list, hitems]

end Converts

/-- What a value becomes, place by place. -/
theorem converts_iff {v w : Value} : v.Converts w ↔ v.Storable ∧ w = v.toNative := by
  constructor
  · intro h
    exact ⟨h.storable, h.eq_toNative⟩
  · rintro ⟨h, rfl⟩
    exact h.converts_toNative

end Value

/-! ## Records and paths -/

/-- That a record has the names of a stored one, in their order, and under each of them the value
that the stored one becomes. -/
structure Record.MadeNative (stored made : Record) : Prop where
  keys : made.keys = stored.keys
  converts : List.Forall₂ (fun e f => f.1 = e.1 ∧ (e.2.Storable → e.2.Converts f.2)) stored made
  native : (∀ e ∈ stored, e.2.Storable) → ∀ e ∈ made, e.2.IsNative

theorem Record.madeNative_toNative (r : Record) : r.MadeNative r.toNative where
  keys := r.keys_toNative
  converts := by
    rw [toNative, List.forall₂_map_right_iff, List.forall₂_same]
    intro e _
    exact ⟨rfl, Value.Storable.converts_toNative⟩
  native := by
    intro hstorable f hf
    rcases List.mem_map.mp hf with ⟨e, he, rfl⟩
    exact (hstorable e he).isNative_toNative

/-- That the nodes and relationships of a path have the properties of those of a stored one, made
native. -/
structure StoredPath.MadeNative (p : StoredPath) (path : Path) : Prop where
  length : path.length = p.relationships.length
  segment : ∀ i s, path[i]? = some s → ∃ a r b, p.nodes[i]? = some a ∧
    p.relationships[i]? = some r ∧ p.nodes[i + 1]? = some b ∧
    Record.MadeNative a.properties s.start.properties ∧
    Record.MadeNative r.properties s.relationship.properties ∧
    Record.MadeNative b.properties s.finish.properties

theorem StoredPath.madeNative_of_toPath {p : StoredPath} {path : Path} (h : p.toPath = .ok path) :
    p.MadeNative path where
  length := length_toPath h
  segment := by
    intro i s hs
    rcases getElem?_toPath h hs with ⟨a, b, r, ha, hb, hr, rfl⟩
    exact ⟨a, r, b, ha, hr, hb, Record.madeNative_toNative _, Record.madeNative_toNative _,
      Record.madeNative_toNative _⟩

/-! ## What queries hand on -/

namespace Access

variable {access : Access} {db : Database}

theorem entityOf_eq_ok {name : String} {column : EntityColumn} {record : Record} :
    entityOf name column = .ok record ↔
      ∃ stored, column = .entity stored ∧ record = stored.toNative := by
  cases column with
  | missing => constructor <;> nofun
  | null => constructor <;> nofun
  | entity stored =>
      constructor
      · intro h
        cases h
        exact ⟨stored, rfl, rfl⟩
      · rintro ⟨_, h, rfl⟩
        cases h
        rfl

/-- A lookup gives the show in the first row. -/
theorem lookUpShow_eq_some {key : Value} {record : Record} :
    (access.lookUpShow db key).result = .ok (some record) ↔
      ∃ stored rows, (access.showLookup db key).reply.toExcept = .ok (.entity stored :: rows) ∧
        record = stored.toNative := by
  change (rowsOf _ _ >>= showOf) = _ ↔ _
  rw [Failure.bind_eq_ok]
  constructor
  · rintro ⟨rows, hrows, hshow⟩
    cases rows with
    | nil => cases hshow
    | cons column rows =>
        change (entityOf showVariable column).map some = _ at hshow
        cases hentity : entityOf showVariable column with
        | error f =>
            rw [hentity] at hshow
            cases hshow
        | ok found =>
            rw [hentity] at hshow
            cases hshow
            rcases entityOf_eq_ok.mp hentity with ⟨stored, rfl, rfl⟩
            exact ⟨stored, rows, rowsOf_eq_ok.mp hrows, rfl⟩
  · rintro ⟨stored, rows, hrows, rfl⟩
    exact ⟨_, rowsOf_eq_ok.mpr hrows, rfl⟩

/-- A search for names gives the people in the rows. -/
theorem suggestNames_eq_ok {name : Text} {limit : Int} {people : List Record} :
    (access.suggestNames db name limit).result = .ok people ↔
      ∃ rows, (access.nameSuggestion db name limit).reply.toExcept = .ok rows ∧
        List.Forall₂ (fun row record => ∃ stored, row = .entity stored ∧
          record = stored.toNative) rows people := by
  change (rowsOf _ _ >>= peopleOf) = _ ↔ _
  simp only [Failure.bind_eq_ok, rowsOf_eq_ok, peopleOf, Failure.mapM_eq_ok, entityOf_eq_ok]

/-- A value that the store keeps becomes native, place by place, and stays as it is from then on.
The properties on a path, those of a show and those of suggested people are values that have become
native, under the names that the store has for them. -/
theorem holdsNative (access : Access) (db : Database) :
    (∀ v : Value, v.Storable →
      (∀ w, v.Converts w ↔ w = v.toNative) ∧ v.toNative.IsNative ∧
        v.toNative.toNative = v.toNative) ∧
    (∀ request path, (access.findPath db request).result = .ok (some path) →
      ∃ rows p, (access.traversal db request).reply.toExcept = .ok rows ∧ .path p ∈ rows ∧
        p.MadeNative path) ∧
    (∀ key record, (access.lookUpShow db key).result = .ok (some record) →
      ∃ stored rows, (access.showLookup db key).reply.toExcept = .ok (.entity stored :: rows) ∧
        stored.MadeNative record) ∧
    ∀ name limit people, (access.suggestNames db name limit).result = .ok people →
      ∃ rows, (access.nameSuggestion db name limit).reply.toExcept = .ok rows ∧
        List.Forall₂ (fun row record => ∃ stored, row = .entity stored ∧
          stored.MadeNative record) rows people := by
  refine ⟨?values, ?paths, ?shows, ?people⟩
  case values =>
    intro v hv
    have hnative := hv.isNative_toNative
    refine ⟨fun w => ?_, hnative, hnative.toNative_eq⟩
    rw [Value.converts_iff, and_iff_right hv]
  case paths =>
    intro request path h
    rcases exists_toPath_of_findPath h with ⟨rows, p, hrows, hp, hpath⟩
    exact ⟨rows, p, hrows, hp, StoredPath.madeNative_of_toPath hpath⟩
  case shows =>
    intro key record h
    rcases lookUpShow_eq_some.mp h with ⟨stored, rows, hrows, rfl⟩
    exact ⟨stored, rows, hrows, stored.madeNative_toNative⟩
  case people =>
    intro name limit people h
    rcases suggestNames_eq_ok.mp h with ⟨rows, hrows, hpeople⟩
    refine ⟨rows, hrows, hpeople.imp ?_⟩
    rintro row record ⟨stored, rfl, rfl⟩
    exact ⟨stored, rfl, stored.madeNative_toNative⟩

/-- The seasons of a show, as lists of the days and times of its episodes. -/
def seasons : Value :=
  .list [.list [.graphDate ⟨2008, 1, 20, by decide⟩, .text "pilot"], .list [],
    .list [.list [.graphDateTime ⟨⟨2009, 3, 8, by decide⟩, 22, 0, 0⟩]]]

/-- What becomes of `seasons`. -/
def nativeSeasons : Value :=
  .list [.list [.date ⟨2008, 1, 20, by decide⟩, .text "pilot"], .list [],
    .list [.list [.dateTime ⟨⟨2009, 3, 8, by decide⟩, 22, 0, 0⟩]]]

/-- A store with temporal values on a path, in a show and in a person. -/
def premieres : Store where
  path := some (.path {
    nodes := [⟨"a", [Label.person], [("born", .graphDate ⟨1956, 3, 7, by decide⟩)]⟩,
      ⟨"b", [Label.tvShow], [("tv_id", .int 7), ("seasons", seasons)]⟩]
    relationships := [⟨"r", "CAST_FOR", "a", "b", [("character", .text "Walter")]⟩] })
  shows := [⟨.int 7, some [("tv_id", .int 7), ("seasons", seasons)], none⟩]
  people := [[("born", .graphDate ⟨1956, 3, 7, by decide⟩)]]

/-- What is handed on from `premieres` is native, and the seasons have kept their places. -/
theorem holdsNative_premieres :
    seasons.Storable ∧ seasons.Converts nativeSeasons ∧ nativeSeasons.toNative = nativeSeasons ∧
      (∃ p path, (findPath ⟨none, .null⟩ premieres ⟨1, 2, [], [], []⟩).result = .ok (some path) ∧
        path.length = 1 ∧ StoredPath.MadeNative p path) ∧
      (∃ record, (lookUpShow ⟨none, .null⟩ premieres (.int 7)).result = .ok (some record) ∧
        record.get? "seasons" = some nativeSeasons ∧ ∀ e ∈ record, e.2.IsNative) ∧
      ∃ people, (suggestNames ⟨none, .null⟩ premieres "walter" 5).result = .ok people ∧
        people.length = 1 ∧ ∀ record ∈ people, ∀ e ∈ record, e.2.IsNative := by
  have hseasons : seasons.Storable := by
    simp only [seasons, Value.storable_list, List.forall_mem_cons, List.not_mem_nil,
      false_implies, implies_true, and_true, true_and]
    exact ⟨⟨.leaf rfl, .leaf rfl⟩, .leaf rfl⟩
  rcases holdsNative ⟨none, .null⟩ premieres with ⟨hvalues, hpaths, hshows, hpeople⟩
  rcases hvalues seasons hseasons with ⟨hconverts, -, hagain⟩
  obtain ⟨path, hpath, hlength⟩ : ∃ path,
      (findPath ⟨none, .null⟩ premieres ⟨1, 2, [], [], []⟩).result = .ok (some path) ∧
        path.length = 1 := ⟨_, rfl, rfl⟩
  obtain ⟨record, hrecord, hget⟩ : ∃ record,
      (lookUpShow ⟨none, .null⟩ premieres (.int 7)).result = .ok (some record) ∧
        record.get? "seasons" = some nativeSeasons := ⟨_, rfl, rfl⟩
  obtain ⟨person, hperson⟩ : ∃ person,
      (suggestNames ⟨none, .null⟩ premieres "walter" 5).result = .ok [person] := ⟨_, rfl⟩
  refine ⟨hseasons, (hconverts _).mpr rfl, hagain, ?traversal, ?lookup, ?suggestion⟩
  case traversal =>
    rcases hpaths _ _ hpath with ⟨-, p, -, -, hmade⟩
    exact ⟨p, path, hpath, hlength, hmade⟩
  case lookup =>
    refine ⟨record, hrecord, hget, ?_⟩
    rcases hshows _ _ hrecord with ⟨stored, rows, hrows, hmade⟩
    cases hrows
    apply hmade.native
    simp only [List.forall_mem_cons, List.not_mem_nil, false_implies, implies_true, and_true]
    exact ⟨.leaf rfl, hseasons⟩
  case suggestion =>
    refine ⟨_, hperson, rfl, List.forall_mem_singleton.mpr ?_⟩
    rcases hpeople _ _ _ hperson with ⟨rows, hrows, hmade⟩
    cases hrows
    rcases List.forall₂_cons.mp hmade with ⟨⟨stored, hstored, hmade⟩, -⟩
    cases hstored
    exact hmade.native (List.forall_mem_singleton.mpr (.leaf rfl))

end Access

end Costar
