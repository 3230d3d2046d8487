import Costar.Filter.Operand
import Costar.Proofs.Calendar.Iso

/-!
# Texts for dates

A text is taken for a date if it is a form of one, and refused otherwise.  The refusal asks for
`YYYY-MM-DD`, but the other forms of a date are taken, too, and a date by week is not the text of
the day that it stands for.

Main results:

- Definition `FieldType.TakesOnlyWritten`: a text is taken for a date only if it is `YYYY-MM-DD`.
- Theorem `FieldType.takesOnlyWritten_iff`: which texts are taken, and of which of them this holds.
- Theorem `FieldType.basic_date_taken`: a text that is taken without being `YYYY-MM-DD`.
-/

namespace Costar

/-- Whether a text is a string of some form; one in which half of a pair stands alone is none. -/
def Text.Is (t : Text) (form : String → Prop) : Prop :=
  ∃ s : String, t = s ∧ form s

@[simp]
theorem Text.is_whole {s : String} {form : String → Prop} : (s : Text).Is form ↔ form s := by
  simp [Is]

/-- A text is read as a day if it is one of the forms of that day. -/
theorem Date.bind_ofIso?_eq_some {t : Text} {d : Date} :
    t.string?.bind ofIso? = some d ↔ t.Is d.Written ∨ t.Is d.WrittenOtherwise := by
  cases t with
  | whole s =>
      rw [Text.is_whole, Text.is_whole]
      exact ofIso?_eq_some
  | broken b => simp [Text.string?, Text.Is]

namespace FieldType

/-- Whether a text is taken for the day that it names as `YYYY-MM-DD`, and refused if it names none
so. -/
structure TakesOnlyWritten (category field t : Text) : Prop where
  taken : ∀ d : Date, t.Is d.Written → coerce category field .date (.text t) = .ok (.date d)
  refused : (∀ d : Date, ¬ t.Is d.Written) →
    coerce category field .date (.text t) = .error (.invalidOperand category field (.notDate t))

variable {category field t : Text}

theorem coerce_date_text (category field t : Text) :
    coerce category field .date (.text t) =
      match t.string?.bind Date.ofIso? with
      | some d => .ok (.date d)
      | none => .error (.invalidOperand category field (.notDate t)) :=
  rfl

theorem coerce_date_text_eq_ok {v : Value} :
    coerce category field .date (.text t) = .ok v ↔
      ∃ d : Date, v = .date d ∧ (t.Is d.Written ∨ t.Is d.WrittenOtherwise) := by
  simp only [coerce_date_text, ← Date.bind_ofIso?_eq_some]
  cases t.string?.bind Date.ofIso? <;> simp [eq_comm]

theorem coerce_date_text_eq_error {f : Failure} :
    coerce category field .date (.text t) = .error f ↔
      f = .invalidOperand category field (.notDate t) ∧
        ∀ d : Date, ¬ (t.Is d.Written ∨ t.Is d.WrittenOtherwise) := by
  simp only [coerce_date_text, ← Date.bind_ofIso?_eq_some]
  cases t.string?.bind Date.ofIso? <;> simp [eq_comm]

/-- A text is taken for a day if it is a form of that day, and refused if it is a form of none.  The
texts of days are the forms `YYYY-MM-DD`, and only the other forms are taken without being one of
these. -/
theorem takesOnlyWritten_iff (category field t : Text) :
    (∀ v, coerce category field .date (.text t) = .ok v ↔
        ∃ d : Date, v = .date d ∧ (t.Is d.Written ∨ t.Is d.WrittenOtherwise)) ∧
      (∀ f, coerce category field .date (.text t) = .error f ↔
        f = .invalidOperand category field (.notDate t) ∧
          ∀ d : Date, ¬ (t.Is d.Written ∨ t.Is d.WrittenOtherwise)) ∧
      (∀ d : Date, t.Is d.Written ↔ d.text = t) ∧
      (TakesOnlyWritten category field t ↔ ∀ d : Date, ¬ t.Is d.WrittenOtherwise) := by
  refine ⟨fun v => coerce_date_text_eq_ok, fun f => coerce_date_text_eq_error, ?_, ?_⟩
  · intro d
    simp only [Text.Is, Date.written_iff]
    constructor
    · rintro ⟨s, rfl, rfl⟩
      rfl
    · rintro rfl
      exact ⟨_, rfl, rfl⟩
  constructor
  · rintro h d ⟨s, rfl, hother⟩
    have hnot : ∀ e : Date, ¬ (s : Text).Is e.Written := by
      intro e he
      exact Date.not_writtenOtherwise (Text.is_whole.mp he) d hother
    have hother := Text.is_whole.mpr hother
    exact (coerce_date_text_eq_error.mp (h.refused hnot)).2 d (Or.inr hother)
  · intro h
    refine ⟨fun d hd => coerce_date_text_eq_ok.mpr ⟨d, rfl, Or.inl hd⟩, fun hnot => ?_⟩
    refine coerce_date_text_eq_error.mpr ⟨rfl, ?_⟩
    rintro d (hd | hd)
    · exact hnot d hd
    · exact h d hd

/-- A date without hyphens is taken. -/
theorem basic_date_taken :
    (∃ d, coerce "person" "birthday" .date (.text "20200101") = .ok (.date d)) ∧
      (∀ d : Date, ¬ Text.Is "20200101" d.Written) ∧
      ¬ TakesOnlyWritten "person" "birthday" "20200101" := by
  obtain ⟨d, hd, htext⟩ : ∃ d, Date.ofIso? "20200101" = some d ∧ d.text = "2020-01-01" :=
    ⟨_, rfl, by decide⟩
  have hnot : ∀ e : Date, ¬ Text.Is "20200101" e.Written := by
    intro e he
    rw [Text.is_whole] at he
    obtain rfl : d = e := Option.some.inj (hd.symm.trans (Date.ofIso?_of_written he))
    rw [Date.written_iff, htext] at he
    exact absurd he (by decide)
  have htaken : coerce "person" "birthday" .date (.text "20200101") = .ok (.date d) := by
    rw [coerce_date_text, Text.string?, Option.bind_some, hd]
  refine ⟨⟨d, htaken⟩, hnot, ?_⟩
  intro h
  have hrefused := h.refused hnot
  rw [htaken] at hrefused
  cases hrefused

end FieldType

end Costar
