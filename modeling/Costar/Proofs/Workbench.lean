import Costar.Proofs.Search.Found
import Costar.Proofs.Search.Queries
import Costar.Workbench

/-!
# What is worked on stays told

Actions on a workbench follow each other in any order, and any of them can fail.  Each does one of
few things to the connection worked on: it may do nothing to it, put another one in its place, add
to it, or change properties and shows in it.  Only those that replace it or add to it change what
its triples refer to, and nothing makes an episode pending again.  So once a connection has been
found or enriched, it can be told until triples are brought in that have not been enriched.

Main results:

- Inductive `Workbench.Effect`: what an action does to the connection worked on.
- Definition `Workbench.generations`: the connections that have been worked on one after another.
- Theorem `Workbench.becomes_generations`: no episode of any of them becomes pending again.
- Theorem `Workbench.settled_actAll`: once nothing is pending, nothing is until triples are brought
  in.
- Theorem `Workbench.actions_keep_told`: what any sequence of actions keeps.
-/

namespace Costar

namespace Workbench

/-! ## What an action does -/

/-- Whether an action asks for the connection to be replaced. -/
def Action.replaces : Action → Bool
  | .find .. => true
  | .decompose _ => true
  | _ => false

/-- Whether an action brings in triples whose episodes are pending. -/
def Action.bringsPending : Action → Bool
  | .decompose _ => true
  | .join _ => true
  | _ => false

/-- Whether an action enriches what it leaves on the workbench. -/
def Action.enriches : Action → Bool
  | .find .. => true
  | .enrich => true
  | _ => false

/-- Whether an action succeeds. -/
def Succeeds (w : Workbench) (a : Action) : Prop :=
  (w.act a).2.result = .ok ()

instance (w : Workbench) (a : Action) : Decidable (w.Succeeds a) :=
  match h : (w.act a).2.result with
  | .ok () => .isTrue h
  | .error _ => .isFalse fun hok => nomatch h.symm.trans hok

/-- What an action does to the connection worked on, and what its result is. -/
inductive Effect (w : Workbench) : Action → Connection → Except Failure Unit → Prop where
  | failed {a : Action} (f : Failure) (h : a ≠ .enrich) : Effect w a w.connection (.error f)
  | stored (store : Database) (timing : Timing) :
      Effect w (.useStore store timing) w.connection (.ok ())
  | found {first second : Value} {filters : Filters} {c : Connection}
      (h : (w.search.find first second filters).result = .ok c) :
      Effect w (.find first second filters) c (.ok ())
  | decomposed {path : Path} {c : Connection} (h : Connection.ofPath path = .ok c) :
      Effect w (.decompose path) c (.ok ())
  | joined {path : Path} {d : Connection} (h : Connection.ofPath path = .ok d) :
      Effect w (.join path) (w.connection.append d) (.ok ())
  | enriched : Effect w .enrich (w.connection.enriched access w.search.stores)
      (Enrichment.resultOf access w.search.stores w.connection)
  | updated {index : Nat} {part : Connection.Part} {key : Text} {v : Value} {c : Connection}
      (h : w.connection.setProperty index part key v = .ok c) :
      Effect w (.setProperty index part key v) c (.ok ())

theorem effect_keep {w : Workbench} {a : Action} {run : Run Connection} (ha : a ≠ .enrich)
    (h : ∀ c, run.result = .ok c → Effect w a c (.ok ())) :
    Effect w a (w.keep run).1.connection (w.keep run).2.result := by
  unfold keep
  split
  · rename_i c hc
    exact h c hc
  · exact .failed _ ha

/-- Every action has one of these effects. -/
theorem effect_act (w : Workbench) (a : Action) :
    Effect w a (w.act a).1.connection (w.act a).2.result := by
  cases a with
  | useStore store timing => exact .stored store timing
  | find first second filters => exact effect_keep nofun fun _ h => .found h
  | decompose path => exact effect_keep nofun fun _ h => .decomposed h
  | join path =>
      refine effect_keep nofun fun c h => ?_
      rw [Run.result_ofExcept] at h
      cases hd : Connection.ofPath path with
      | error f =>
          rw [hd] at h
          cases h
      | ok d =>
          rw [hd] at h
          cases h
          exact .joined hd
  | enrich =>
      obtain ⟨hconnection, hresult⟩ := w.search.enrich_eq w.connection
      change Effect w .enrich (w.search.enrich w.connection).connection
        (w.search.enrich w.connection).run.result
      rw [hconnection, hresult]
      exact .enriched
  | setProperty index part key v => exact effect_keep nofun fun _ h => .updated h

/-! ## Single actions -/

variable {w : Workbench} {a : Action}

namespace Effect

variable {d : Connection} {result : Except Failure Unit}

/-- An action that does not replace the connection keeps what its projects have become. -/
theorem becomes (heffect : Effect w a d result)
    (h : ¬ (a.replaces = true ∧ result = .ok ())) : w.connection.Becomes d := by
  cases heffect with
  | failed => exact .refl _
  | stored => exact .refl _
  | found => exact absurd ⟨rfl, rfl⟩ h
  | decomposed => exact absurd ⟨rfl, rfl⟩ h
  | joined => exact Connection.becomes_append _ _
  | enriched => exact Connection.becomes_enriched _ _ _
  | updated hset => exact (Connection.becomes_of_setProperty hset).1

/-- An action that neither replaces the connection nor adds to it keeps what its triples refer
to. -/
theorem references (heffect : Effect w a d result)
    (h : ¬ ((a.replaces = true ∨ a.bringsPending = true) ∧ result = .ok ())) :
    d.references = w.connection.references := by
  cases heffect with
  | failed => rfl
  | stored => rfl
  | found => exact absurd ⟨Or.inl rfl, rfl⟩ h
  | decomposed => exact absurd ⟨Or.inl rfl, rfl⟩ h
  | joined => exact absurd ⟨Or.inr rfl, rfl⟩ h
  | enriched => exact Connection.references_enriched _ _ _
  | updated hset => exact (Connection.becomes_of_setProperty hset).2

theorem wellFormed (heffect : Effect w a d result) (hw : w.connection.WellFormed) :
    d.WellFormed := by
  cases heffect with
  | failed => exact hw
  | stored => exact hw
  | found h => exact (Search.settled_of_find h).1
  | decomposed h => exact Connection.wellFormed_of_ofPath h
  | joined h => exact hw.append (Connection.wellFormed_of_ofPath h)
  | enriched =>
      exact hw.of_becomes (Connection.becomes_enriched _ _ _) (Connection.references_enriched _ _ _)
  | updated h =>
      rcases Connection.becomes_of_setProperty h with ⟨hbecomes, hreferences⟩
      exact hw.of_becomes hbecomes hreferences

/-- An action that enriches and succeeds leaves no episode pending. -/
theorem settled_of_enriches (heffect : Effect w a d result) (ha : a.enriches = true)
    (hsucceeds : result = .ok ()) : d.Settled := by
  cases heffect with
  | failed => cases hsucceeds
  | found h => exact (Search.settled_of_find h).2
  | enriched => exact Connection.settled_enriched hsucceeds
  | _ => cases ha

/-- No action leaves a pending episode where none was, unless it brings it in. -/
theorem settled (heffect : Effect w a d result) (hw : w.connection.WellFormed)
    (hsettled : w.connection.Settled) (h : ¬ (a.bringsPending = true ∧ result = .ok ())) :
    d.Settled := by
  by_cases hreplaces : a.replaces = true ∧ result = .ok ()
  · rcases hreplaces with ⟨hreplaces, hsucceeds⟩
    cases a with
    | find first second filters => exact heffect.settled_of_enriches rfl hsucceeds
    | decompose path => exact absurd ⟨rfl, hsucceeds⟩ h
    | _ => cases hreplaces
  · refine hsettled.of_becomes hw (heffect.becomes hreplaces) (heffect.references ?_)
    rintro ⟨ha | ha, hsucceeds⟩
    · exact hreplaces ⟨ha, hsucceeds⟩
    · exact h ⟨ha, hsucceeds⟩

/-- An action that fails leaves the connection as it was, or if it is an enrichment, changes only
the shows of episodes. -/
theorem of_fails (heffect : Effect w a d result) {f : Failure} (hfails : result = .error f) :
    (a ≠ .enrich → d = w.connection) ∧ (a = .enrich → w.connection.OnlyShowsChanged d) := by
  cases heffect with
  | failed g ha => exact ⟨fun _ => rfl, fun heq => absurd heq ha⟩
  | enriched => exact ⟨fun ha => absurd rfl ha, fun _ => Connection.onlyShowsChanged_enriched _ _ _⟩
  | _ => cases hfails

end Effect

/-! ## Whole runs -/

theorem wellFormed_actAll (hw : w.connection.WellFormed) (actions : List Action) :
    (w.actAll actions).connection.WellFormed := by
  induction actions generalizing w with
  | nil => exact hw
  | cons a rest ih => exact ih ((effect_act w a).wellFormed hw)

/-- Whether an action among others succeeds in bringing in triples whose episodes are pending. -/
def BringsPending (w : Workbench) (actions : List Action) : Prop :=
  ∃ before a after, actions = before ++ a :: after ∧ a.bringsPending = true ∧
    (w.actAll before).Succeeds a

/-- Once no episode is pending, none is until some are brought in. -/
theorem settled_actAll (hw : w.connection.WellFormed) (hsettled : w.connection.Settled)
    {actions : List Action} (h : ¬ w.BringsPending actions) :
    (w.actAll actions).connection.Settled := by
  induction actions generalizing w with
  | nil => exact hsettled
  | cons a rest ih =>
      refine ih ((effect_act w a).wellFormed hw) ((effect_act w a).settled hw hsettled ?_) ?_
      · rintro ⟨ha, hsucceeds⟩
        exact h ⟨[], a, rest, rfl, ha, hsucceeds⟩
      · rintro ⟨before, b, after, rfl, hb, hsucceeds⟩
        exact h ⟨a :: before, b, after, rfl, hb, hsucceeds⟩

/-! ## Generations -/

/-- The connections that are worked on one after another, each as it has become when it is replaced,
the last as it is at the end.  What has been replaced is out of reach of later actions. -/
def generations (w : Workbench) : List Action → List Connection
  | [] => [w.connection]
  | a :: rest =>
    if a.replaces = true ∧ w.Succeeds a then w.connection :: (w.act a).1.generations rest
    else (w.act a).1.generations rest

/-- The last of the connections is the one on the workbench. -/
theorem getLast?_generations (w : Workbench) (actions : List Action) :
    (w.generations actions).getLast? = some (w.actAll actions).connection := by
  induction actions generalizing w with
  | nil => rfl
  | cons a rest ih =>
      unfold generations
      split
      · rw [List.getLast?_cons, ih]
        rfl
      · exact ih (w.act a).1

/-- The first of the connections is what has become of the one that is there at the beginning. -/
theorem becomes_head_generations (w : Workbench) (actions : List Action) :
    ∃ c, (w.generations actions)[0]? = some c ∧ w.connection.Becomes c := by
  induction actions generalizing w with
  | nil => exact ⟨w.connection, rfl, .refl _⟩
  | cons a rest ih =>
      unfold generations
      split
      · exact ⟨w.connection, rfl, .refl _⟩
      · rename_i hkept
        rcases ih (w.act a).1 with ⟨c, hc, hbecomes⟩
        exact ⟨c, hc, ((effect_act w a).becomes hkept).trans hbecomes⟩

/-- Later actions find each of the connections as it is or as it may become. -/
theorem becomes_generations {actions : List Action} (more : List Action) {g : Nat}
    {c : Connection} (h : (w.generations actions)[g]? = some c) :
    ∃ d, (w.generations (actions ++ more))[g]? = some d ∧ c.Becomes d := by
  induction actions generalizing w g with
  | nil =>
      cases g with
      | zero =>
          cases h
          exact becomes_head_generations w more
      | succ g => cases h
  | cons a rest ih =>
      rw [List.cons_append]
      unfold generations at h ⊢
      split at h
      · rename_i hreplaces
        rw [if_pos hreplaces]
        cases g with
        | zero =>
            cases h
            exact ⟨w.connection, rfl, .refl _⟩
        | succ g => exact ih h
      · rename_i hkept
        rw [if_neg hkept]
        exact ih h

/-- An episode that is not pending never becomes pending again. -/
theorem not_pending_generations {actions : List Action} (more : List Action) {g i : Nat}
    {c : Connection} {r : Record} {parent : ParentShow}
    (hc : (w.generations actions)[g]? = some c)
    (he : c.projects[i]? = some (.episode r parent)) (hparent : parent ≠ .pending) :
    ∃ d s now, (w.generations (actions ++ more))[g]? = some d ∧
      d.projects[i]? = some (.episode s now) ∧ now ≠ .pending := by
  rcases becomes_generations more hc with ⟨d, hd, hbecomes⟩
  rcases hbecomes.projects he with ⟨q, hq, hbecomes⟩
  cases hbecomes with
  | @episode _ s _ now hold => exact ⟨d, s, now, hd, hq, fun hnow => hparent (hold hnow)⟩

/-- A workbench with nothing on it yet. -/
def start (store : Database) (timing : Timing) (concurrency : Int) : Workbench where
  store := store
  concurrency := concurrency
  timing := timing

/-- Whatever is done one after another on a workbench, with any stores and however much of it fails:
every triple refers to a person and a project; an episode that is not pending, of the connection on
the workbench or of one that has been replaced, never becomes pending again; after an action that
has found or enriched a connection, and until one succeeds that decomposes a path, all of the
connection can be told; an action that fails changes nothing, or at most the shows of episodes if it
is an enrichment; and only an action that succeeds in replacing the connection or in adding to it
changes which people and projects its triples share. -/
theorem actions_keep_told (store : Database) (timing : Timing) (concurrency : Int)
    (actions : List Action) (a : Action) (more : List Action) :
    let w := (start store timing concurrency).actAll actions
    w.connection.WellFormed ∧
      ((start store timing concurrency).generations actions).getLast? = some w.connection ∧
      (∀ {g i : Nat} {c : Connection} {r : Record} {parent : ParentShow},
        ((start store timing concurrency).generations actions)[g]? = some c →
        c.projects[i]? = some (.episode r parent) → parent ≠ .pending →
          ∃ d s now, ((start store timing concurrency).generations (actions ++ more))[g]? = some d ∧
            d.projects[i]? = some (.episode s now) ∧ now ≠ .pending) ∧
      (a.enriches = true → w.Succeeds a → ¬ (w.act a).1.BringsPending more →
        ((w.act a).1.actAll more).connection.Told) ∧
      (∀ {f : Failure}, (w.act a).2.result = .error f →
        (a ≠ .enrich → (w.act a).1.connection = w.connection) ∧
          (a = .enrich → w.connection.OnlyShowsChanged (w.act a).1.connection)) ∧
      (¬ ((a.replaces = true ∨ a.bringsPending = true) ∧ w.Succeeds a) →
        (w.act a).1.connection.references = w.connection.references) := by
  intro w
  have hwf : w.connection.WellFormed := by
    refine wellFormed_actAll ?_ actions
    intro t ht
    cases ht
  have heffect := effect_act w a
  refine ⟨hwf, getLast?_generations _ actions, not_pending_generations more, ?_,
    heffect.of_fails, heffect.references⟩
  intro ha hsucceeds hmore
  have hsettled := heffect.settled_of_enriches ha hsucceeds
  exact (settled_actAll (heffect.wellFormed hwf) hsettled hmore).told

/-- Once the connection of `Search.coGuests` has been found, its episode may come to refer to
another show and a path without segments may fail to be joined to it: it can still be told. -/
theorem actions_keep_told_coGuests :
    let w := start Search.coGuests.database .inOrder 8
    let a : Action := .find (.int 1) (.int 2) (.given .null)
    let more : List Action := [.setProperty 0 .project "show_id" (.int 5), .join []]
    w.Succeeds a ∧ ¬ (w.act a).1.BringsPending more ∧
      ((w.act a).1.actAll more).connection.triples.length = 2 ∧
      ((w.act a).1.actAll more).connection.Told := by
  intro w a more
  have hmore : ¬ (w.act a).1.BringsPending more := by
    rintro ⟨before, b, after, heq, hb, hsucceeds⟩
    rcases before with _ | ⟨_, _ | ⟨_, before⟩⟩
    · obtain ⟨rfl, -⟩ := List.cons.inj heq
      cases hb
    · obtain ⟨rfl, -⟩ := List.cons.inj (List.cons.inj heq).2
      cases hsucceeds
    · simp [more] at heq
  have htold := (actions_keep_told Search.coGuests.database .inOrder 8 [] a more).2.2.2.1
  exact ⟨rfl, hmore, rfl, htold rfl rfl hmore⟩

end Workbench

end Costar
