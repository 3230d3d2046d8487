import Costar.Failure
import Mathlib.Data.List.Forall2

/-!
# Lists of steps

A list of steps of which each may fail succeeds exactly when all of them do.

Main results:

- Theorem `Failure.mapM_eq_ok`: the results are those of the single steps.
- Theorem `Failure.mem_of_mapM_eq_ok`: a result is among them if some item gives it.
- Theorem `Failure.mapM_eq_map`: they are known where every single result is.
- Theorem `Failure.mapM_eq_error`: a list of steps fails with the first step that does.
- Theorem `Failure.foldlM_eq_error`: so does a list of steps that hand on a state.
-/

namespace Costar

namespace Failure

variable {α β : Type} {f : α → Except Failure β}

/-- A step for every item of a list succeeds with the results of the single steps. -/
theorem mapM_eq_ok {l : List α} {results : List β} :
    l.mapM f = .ok results ↔ List.Forall₂ (fun a b => f a = .ok b) l results := by
  induction l generalizing results with
  | nil =>
      rw [List.mapM_nil, List.forall₂_nil_left_iff]
      constructor
      · intro h
        cases h
        rfl
      · rintro rfl
        rfl
  | cons a rest ih =>
      rw [List.mapM_cons, bind_eq_ok, List.forall₂_cons_left_iff]
      constructor
      · rintro ⟨b, hb, h⟩
        rcases bind_eq_ok.mp h with ⟨bs, hbs, h⟩
        cases h
        exact ⟨b, bs, hb, ih.mp hbs, rfl⟩
      · rintro ⟨b, bs, hb, hbs, rfl⟩
        exact ⟨b, hb, bind_eq_ok.mpr ⟨bs, ih.mpr hbs, rfl⟩⟩

/-- Where a step succeeds for every item of a list, it does so for each of them. -/
theorem exists_of_mapM_eq_ok {l : List α} {results : List β} (h : l.mapM f = .ok results) {a : α}
    (ha : a ∈ l) : ∃ b ∈ results, f a = .ok b := by
  have hall := mapM_eq_ok.mp h
  clear h
  induction hall with
  | nil => cases ha
  | cons hb _ ih =>
      rcases List.mem_cons.mp ha with rfl | hrest
      · exact ⟨_, List.mem_cons_self, hb⟩
      · rcases ih hrest with ⟨b, hmem, hfound⟩
        exact ⟨b, List.mem_cons_of_mem _ hmem, hfound⟩

/-- The results of a step for every item of a list are those of single items. -/
theorem mem_of_mapM_eq_ok {l : List α} {results : List β} (h : l.mapM f = .ok results) {b : β} :
    b ∈ results ↔ ∃ a ∈ l, f a = .ok b := by
  constructor
  · intro hb
    have hall := mapM_eq_ok.mp h
    clear h
    induction hall with
    | nil => cases hb
    | cons hfirst _ ih =>
        rcases List.mem_cons.mp hb with rfl | hrest
        · exact ⟨_, List.mem_cons_self, hfirst⟩
        · rcases ih hrest with ⟨a, hmem, hfound⟩
          exact ⟨a, List.mem_cons_of_mem _ hmem, hfound⟩
  · rintro ⟨a, ha, hfound⟩
    rcases exists_of_mapM_eq_ok h ha with ⟨b', hmem, hfound'⟩
    rw [hfound] at hfound'
    cases hfound'
    exact hmem

/-- A step that succeeds for every item of a list gives the list of its results. -/
theorem mapM_eq_map {g : α → β} {l : List α} (h : ∀ a ∈ l, f a = .ok (g a)) :
    l.mapM f = .ok (l.map g) := by
  rw [mapM_eq_ok, List.forall₂_map_right_iff, List.forall₂_same]
  exact h

/-! ## The first step that fails -/

/-- What does not fail succeeds. -/
theorem exists_eq_ok_iff {x : Except Failure α} : (∃ a, x = .ok a) ↔ ∀ e, x ≠ .error e := by
  cases x <;> simp

/-- Two steps fail when the first does, or the second after it. -/
theorem bind_eq_error {x : Except Failure α} {g : α → Except Failure β} {e : Failure} :
    x >>= g = .error e ↔ x = .error e ∨ ∃ a, x = .ok a ∧ g a = .error e := by
  cases x <;> simp [bind, Except.bind]

/-- A second step that cannot fail does not matter. -/
theorem bind_pure_eq_error {x : Except Failure α} {g : α → β} {e : Failure} :
    (x >>= fun a => pure (g a)) = .error e ↔ x = .error e := by
  cases x <;> simp [bind, Except.bind, pure, Except.pure]

theorem map_eq_error {x : Except Failure α} {g : α → β} {e : Failure} :
    x.map g = .error e ↔ x = .error e := by
  cases x <;> simp [Except.map]

variable {e : Failure}

theorem mapM_cons_eq_error {a : α} {rest : List α} :
    (a :: rest).mapM f = .error e ↔
      f a = .error e ∨ (∃ b, f a = .ok b) ∧ rest.mapM f = .error e := by
  rw [List.mapM_cons, bind_eq_error]
  simp only [bind_pure_eq_error, exists_and_right]

/-- The first item of a list that fails is its head, or the first one behind a head that does
not. -/
theorem exists_first_cons {P Q : α → Prop} {a : α} {rest : List α} :
    (∃ before b after, a :: rest = before ++ b :: after ∧ (∀ x ∈ before, P x) ∧ Q b) ↔
      Q a ∨ P a ∧ ∃ before b after, rest = before ++ b :: after ∧ (∀ x ∈ before, P x) ∧ Q b := by
  constructor
  · rintro ⟨before, b, after, hl, hbefore, hb⟩
    cases before with
    | nil =>
        cases hl
        exact Or.inl hb
    | cons x before =>
        cases hl
        rcases List.forall_mem_cons.mp hbefore with ⟨ha, hbefore⟩
        exact Or.inr ⟨ha, before, b, after, rfl, hbefore, hb⟩
  · rintro (ha | ⟨ha, before, b, after, rfl, hbefore, hb⟩)
    · exact ⟨[], a, rest, rfl, by simp, ha⟩
    · exact ⟨a :: before, b, after, rfl, List.forall_mem_cons.mpr ⟨ha, hbefore⟩, hb⟩

/-- A list of steps fails with the first step that does. -/
theorem mapM_eq_error {l : List α} :
    l.mapM f = .error e ↔
      ∃ before a after, l = before ++ a :: after ∧ (∀ b ∈ before, ∃ r, f b = .ok r) ∧
        f a = .error e := by
  induction l with
  | nil =>
      constructor
      · intro h
        cases h
      · rintro ⟨before, a, after, hl, -, -⟩
        exact absurd hl.symm (List.append_ne_nil_of_right_ne_nil _ (List.cons_ne_nil a after))
  | cons a rest ih => rw [mapM_cons_eq_error, ih, exists_first_cons]

theorem mapM_append_eq_error {l m : List α} :
    (l ++ m).mapM f = .error e ↔
      l.mapM f = .error e ∨ (∃ results, l.mapM f = .ok results) ∧ m.mapM f = .error e := by
  rw [List.mapM_append, bind_eq_error]
  simp only [bind_pure_eq_error, exists_and_right]

/-- Lists of steps that fail alike fail alike. -/
theorem mapM_eq_error_congr {γ : Type} {g : α → Except Failure γ} {l : List α}
    (h : ∀ a ∈ l, ∀ e, f a = .error e ↔ g a = .error e) :
    l.mapM f = .error e ↔ l.mapM g = .error e := by
  induction l with
  | nil =>
      constructor <;>
      · intro hnil
        cases hnil
  | cons a rest ih =>
      rcases List.forall_mem_cons.mp h with ⟨ha, hrest⟩
      have hok : (∃ b, f a = .ok b) ↔ ∃ c, g a = .ok c := by
        cases hf : f a with
        | error e =>
            rw [(ha e).mp hf]
            simp
        | ok b =>
            cases hg : g a with
            | error e =>
                rw [(ha e).mpr hg] at hf
                cases hf
            | ok c => simp
      rw [mapM_cons_eq_error, mapM_cons_eq_error, ha, hok, ih hrest]

/-- The steps for joined lists fail as the steps for one list after another do. -/
theorem mapM_flatMap_eq_error {γ : Type} {g : γ → List α} {l : List γ} :
    (l.flatMap g).mapM f = .error e ↔ (l.mapM fun c => (g c).mapM f) = .error e := by
  induction l with
  | nil =>
      constructor <;>
      · intro hnil
        cases hnil
  | cons c rest ih => rw [List.flatMap_cons, mapM_append_eq_error, mapM_cons_eq_error, ih]

/-- Steps that succeed may be left out of a list. -/
theorem mapM_filter_eq_error {l : List α} {keep : α → Bool}
    (h : ∀ a ∈ l, keep a = false → ∃ b, f a = .ok b) :
    (l.filter keep).mapM f = .error e ↔ l.mapM f = .error e := by
  induction l with
  | nil => rfl
  | cons a rest ih =>
      rcases List.forall_mem_cons.mp h with ⟨ha, hrest⟩
      rw [List.filter_cons, mapM_cons_eq_error]
      cases hkeep : keep a with
      | true => rw [if_pos rfl, mapM_cons_eq_error, ih hrest]
      | false =>
          rcases ha hkeep with ⟨b, hb⟩
          rw [if_neg (by decide), ih hrest, hb]
          simp

/-- A list of steps that hand on a state fails with the first step that does. -/
theorem foldlM_eq_error {σ : Type} {g : σ → α → Except Failure σ} {l : List α} {s : σ} :
    l.foldlM g s = .error e ↔
      ∃ before a after t, l = before ++ a :: after ∧ before.foldlM g s = .ok t ∧
        g t a = .error e := by
  induction l generalizing s with
  | nil =>
      constructor
      · intro h
        cases h
      · rintro ⟨before, a, after, -, hl, -, -⟩
        exact absurd hl.symm (List.append_ne_nil_of_right_ne_nil _ (List.cons_ne_nil a after))
  | cons a rest ih =>
      rw [List.foldlM_cons, bind_eq_error]
      constructor
      · rintro (ha | ⟨t, ht, h⟩)
        · exact ⟨[], a, rest, s, rfl, rfl, ha⟩
        · rcases ih.mp h with ⟨before, x, after, u, rfl, hu, hx⟩
          exact ⟨a :: before, x, after, u, rfl, bind_eq_ok.mpr ⟨t, ht, hu⟩, hx⟩
      · rintro ⟨before, x, after, u, hl, hu, hx⟩
        cases before with
        | nil =>
            cases hl
            cases hu
            exact Or.inl hx
        | cons b before =>
            cases hl
            rcases bind_eq_ok.mp hu with ⟨t, ht, hu⟩
            exact Or.inr ⟨t, ht, ih.mpr ⟨before, x, after, u, rfl, hu, hx⟩⟩

end Failure

end Costar
