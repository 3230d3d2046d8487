import Costar.Proofs.Connection.Sharing
import Costar.Proofs.Record

/-!
# Reported types

A project and a credit are reported with the name of their type in front of their properties, and an
episode with its show behind them.  A property of a record never changes what the show is reported
as, and the type can be told again from what is reported.  But a record may have a property under
the name that types are reported under, and then that property is reported in place of the type.

Main results:

- Theorem `Record.get?_typed`: what is found in a record with a type name.
- Theorem `Project.exists_ofRecord_of_populates`: the type of a project is told by four fields.
- Theorem `Record.reported_type_eq_iff`: the reported type is the one that is told, unless the record
  has another type name of its own.
- Theorem `Record.own_type_reported`: a movie is reported as an episode.
-/

namespace Costar

namespace Record

variable {r : Record} {key : Text} {name : String}

/-- What is found in a record with a type name: its own entries, and behind them the name. -/
theorem get?_typed (h : r.keys.Nodup) :
    (r.typed name).get? key =
      (r.get? key).or (if key = "__typename" then some (.text name) else none) := by
  rw [typed, get?_merge h]
  congr 1
  by_cases hkey : key = "__typename"
  · subst hkey
    simp [get?]
  · have hne : (key == ("__typename" : Text)) = false := by simpa using hkey
    simp [get?, List.lookup_cons, hne, hkey]

/-- The type name is that of the record, if it has one. -/
theorem get?_typed_eq_iff (h : r.keys.Nodup) :
    (r.typed name).get? "__typename" = some (.text name) ↔
      ∀ v, r.get? "__typename" = some v → v = .text name := by
  rw [get?_typed h, if_pos rfl]
  cases r.get? "__typename" <;> simp

/-- Whether a name has a value is seen in what is found under it. -/
theorem populates_congr {d : Record} (h : d.get? key = r.get? key) :
    d.populates key = r.populates key := by
  rw [populates, populates, h]

theorem populates_typed (h : r.keys.Nodup) (hkey : key ≠ "__typename") :
    (r.typed name).populates key = r.populates key := by
  apply populates_congr
  simp [get?_typed h, hkey]

end Record

/-! ## Projects -/

/-- The show of an episode as it is reported. -/
def ParentShow.reported : ParentShow → Value
  | .found properties => .map properties
  | _ => .null

namespace Project

variable {r d : Record} {p : Project} {parent : ParentShow}

/-- A record describes a movie if it names one, or else an episode if it names one or a show. -/
theorem ofRecord_eq_ok : ofRecord r = .ok p ↔
    r.populates "movie_id" = true ∧ p = .movie r ∨
      r.populates "movie_id" = false ∧ r.TellsProject ∧ p = .episode r .pending := by
  unfold ofRecord
  by_cases hmovie : r.populates "movie_id" = true
  · rw [if_pos hmovie, hmovie]
    simp only [Except.ok.injEq, true_and, Bool.true_eq_false, false_and, or_false]
    exact eq_comm
  · rw [Bool.not_eq_true] at hmovie
    have htells : r.TellsProject ↔
        (["episode_id", "show_id", "tv_show_id"] : List Text).any r.populates = true := by
      simp [Record.TellsProject, hmovie]
    rw [hmovie, htells]
    simp only [Bool.false_eq_true, if_false, false_and, false_or, true_and]
    by_cases hepisode :
        (["episode_id", "show_id", "tv_show_id"] : List Text).any r.populates = true
    · rw [if_pos hepisode]
      simp only [hepisode, Except.ok.injEq, true_and]
      exact eq_comm
    · rw [if_neg hepisode]
      simp only [reduceCtorEq, hepisode, false_and]

/-- Records that have values for the same of the fields that tell what a project is describe
projects of one type. -/
theorem exists_ofRecord_of_populates
    (h : ∀ key ∈ ["movie_id", "episode_id", "show_id", "tv_show_id"],
      d.populates key = r.populates key)
    (hp : ofRecord r = .ok p) : ∃ q, ofRecord d = .ok q ∧ q.typeName = p.typeName := by
  have hmovie := h "movie_id" (by simp)
  rcases ofRecord_eq_ok.mp hp with ⟨hr, rfl⟩ | ⟨hr, ⟨key, hkey, htells⟩, rfl⟩
  · exact ⟨.movie d, ofRecord_eq_ok.mpr (Or.inl ⟨hmovie.trans hr, rfl⟩), rfl⟩
  · have hd : d.TellsProject := ⟨key, hkey, (h key hkey).trans htells⟩
    exact ⟨.episode d .pending, ofRecord_eq_ok.mpr (Or.inr ⟨hmovie.trans hr, hd, rfl⟩), rfl⟩

/-- An episode whose show has been looked up is reported with its show. -/
theorem describe_episode (h : parent ≠ .pending) :
    (episode r parent).describe = .ok ((r.typed "TvEpisode").put "parent_show" parent.reported) := by
  cases parent with
  | pending => exact absurd rfl h
  | absent => rfl
  | found properties => rfl

/-- What a project is reported as once its show is known: the type name, the properties, and for an
episode the show. -/
theorem exists_describe_withParent (hp : ofRecord r = .ok p) (h : parent ≠ .pending) :
    ∃ d, (p.withParent parent).describe = .ok d ∧
      (∀ key : Text, key ≠ "parent_show" → d.get? key = (r.typed p.typeName).get? key) ∧
      (p.typeName = "TvEpisode" → d.get? "parent_show" = some parent.reported) := by
  rcases ofRecord_eq_ok.mp hp with ⟨-, rfl⟩ | ⟨-, -, rfl⟩
  · exact ⟨_, rfl, fun _ _ => rfl, by simp [typeName]⟩
  · refine ⟨_, describe_episode h, ?_, fun _ => Record.get?_put_self _ _ _⟩
    intro key hkey
    exact Record.get?_put_of_ne _ _ hkey

end Project

/-! ## Credits -/

namespace Credit

variable {r d : Record} {k : Credit}

/-- Records that have values for the same of the two fields describe credits of one type. -/
theorem exists_ofRecord_of_populates
    (h : ∀ key ∈ ["character", "department"], d.populates key = r.populates key)
    (hk : ofRecord r = .ok k) : ∃ l, ofRecord d = .ok l ∧ l.typeName = k.typeName := by
  have hcharacter := h "character" (by simp)
  have hdepartment := h "department" (by simp)
  rcases ofRecord_eq_ok.mp hk with ⟨hr, rfl⟩ | ⟨hr, hr', rfl⟩
  · exact ⟨.cast d, ofRecord_eq_ok.mpr (Or.inl ⟨hcharacter.trans hr, rfl⟩), rfl⟩
  · refine ⟨.crew d, ofRecord_eq_ok.mpr (Or.inr ⟨hcharacter.trans hr, ?_, rfl⟩), rfl⟩
    exact hdepartment.trans hr'

theorem describe_of_ofRecord (hk : ofRecord r = .ok k) : k.describe = r.typed k.typeName := by
  rcases ofRecord_eq_ok.mp hk with ⟨-, rfl⟩ | ⟨-, -, rfl⟩ <;> rfl

end Credit

/-! ## Reported types -/

namespace Record

/-- The type under which a project or a credit is reported is the one that is told by the fields of
its record, exactly when the record does not have another type name of its own.  In any case what is
reported describes a project or a credit of the same type again, and an episode is reported with the
show that it has been given, whatever its record contains. -/
theorem reported_type_eq_iff {r : Record} (hkeys : r.keys.Nodup) :
    (∀ p, Project.ofRecord r = .ok p → ∀ parent, parent ≠ .pending →
      ∃ d, (p.withParent parent).describe = .ok d ∧
        (d.get? "__typename" = some (.text p.typeName) ↔
          ∀ v, r.get? "__typename" = some v → v = .text p.typeName) ∧
        (∃ q, Project.ofRecord d = .ok q ∧ q.typeName = p.typeName) ∧
        (p.typeName = "TvEpisode" → d.get? "parent_show" = some parent.reported)) ∧
    ∀ k, Credit.ofRecord r = .ok k →
      (k.describe.get? "__typename" = some (.text k.typeName) ↔
        ∀ v, r.get? "__typename" = some v → v = .text k.typeName) ∧
      ∃ l, Credit.ofRecord k.describe = .ok l ∧ l.typeName = k.typeName := by
  constructor
  · intro p hp parent hparent
    obtain ⟨d, hd, hget, hshow⟩ := Project.exists_describe_withParent hp hparent
    refine ⟨d, hd, ?_, ?_, hshow⟩
    · rw [hget _ (by decide)]
      exact get?_typed_eq_iff hkeys
    · apply Project.exists_ofRecord_of_populates _ hp
      intro key hkey
      have hne : (key : Text) ≠ "parent_show" ∧ (key : Text) ≠ "__typename" := by
        simp only [List.mem_cons, List.not_mem_nil, or_false] at hkey
        rcases hkey with rfl | rfl | rfl | rfl <;> decide
      rw [populates_congr (hget key hne.1), populates_typed hkeys hne.2]
  · intro k hk
    rw [Credit.describe_of_ofRecord hk]
    refine ⟨get?_typed_eq_iff hkeys, ?_⟩
    apply Credit.exists_ofRecord_of_populates _ hk
    intro key hkey
    apply populates_typed hkeys
    rcases List.mem_pair.mp hkey with rfl | rfl <;> decide

/-- An episode of which no id but that of its show is known, and which has a property of the name
under which its show is reported. -/
def namesakeOfShow : Record :=
  [("movie_id", .null), ("parent_show", .text "The Wire"), ("show_id", .int 1438)]

/-- The show that `namesakeOfShow` has been given is reported, and so is its type. -/
theorem reported_type_of_namesakeOfShow :
    namesakeOfShow.keys.Nodup ∧ ∃ p d, Project.ofRecord namesakeOfShow = .ok p ∧
      (p.withParent (.found [("tv_id", .int 1438)])).describe = .ok d ∧
      d.get? "__typename" = some (.text "TvEpisode") ∧
      (∃ q, Project.ofRecord d = .ok q ∧ q.typeName = "TvEpisode") ∧
      d.get? "parent_show" = some (.map [("tv_id", .int 1438)]) := by
  have hkeys : namesakeOfShow.keys.Nodup := by decide
  obtain ⟨d, hd, htype, hagain, hshow⟩ :=
    (reported_type_eq_iff hkeys).1 _ rfl (.found [("tv_id", .int 1438)]) nofun
  refine ⟨hkeys, _, d, rfl, hd, htype.mpr ?_, hagain, hshow rfl⟩
  intro v hv
  cases hv

/-- A movie whose record says that it is an episode. -/
def episodeByName : Record :=
  [("movie_id", .int 1), ("__typename", .text "TvEpisode")]

/-- The movie `episodeByName` is reported as an episode. -/
theorem own_type_reported :
    Project.ofRecord episodeByName = .ok (.movie episodeByName) ∧
      ∃ d, (Project.movie episodeByName).describe = .ok d ∧
        d.get? "__typename" = some (.text "TvEpisode") ∧
        (Project.movie episodeByName).typeName = "Movie" :=
  ⟨rfl, _, rfl, rfl, rfl⟩

end Record

end Costar
