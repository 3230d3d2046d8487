import Costar.Value

/-!
# Equality with whole numbers

Values of different kinds can be equal as numbers.  What equals a value that equals a whole number
equals that whole number too, so the kind in which a store keeps an id does not matter.

Main results:

- Theorem `Binary64.toInt?_of_eqv`: equal binary64 numbers are equal to the same whole number.
- Theorem `Value.same_int_trans`: equality carries a whole number from one value to another.
-/

namespace Costar

namespace Binary64

variable {x y : Binary64}

theorem fraction_eq_mod (x : Binary64) : x.fraction = x.magnitude % leadingBit := by
  unfold fraction magnitude
  have hdvd : leadingBit ∣ signBit := ⟨2048, by decide⟩
  exact (Nat.mod_mod_of_dvd x.word hdvd).symm

/-- The ratio of a number depends on its magnitude only. -/
theorem ratio_congr (h : x.magnitude = y.magnitude) : x.ratio = y.ratio := by
  have hexponent : x.exponentField = y.exponentField := by
    unfold exponentField
    rw [h]
  have hfraction : x.fraction = y.fraction := by
    rw [fraction_eq_mod, fraction_eq_mod, h]
  unfold ratio scale significand
  rw [hexponent, hfraction]

theorem ratio_of_magnitude_zero (h : x.magnitude = 0) : x.ratio.1 = 0 := by
  have hexponent : x.exponentField = 0 := by
    unfold exponentField
    rw [h, Nat.zero_div]
  have hfraction : x.fraction = 0 := by
    rw [fraction_eq_mod, h, Nat.zero_mod]
  unfold ratio scale significand
  rw [if_pos hexponent, if_pos hexponent, hfraction]
  rfl

/-- Numbers of one rank have one magnitude, and unless that is zero also one sign. -/
theorem magnitude_of_rank_eq (h : x.rank = y.rank) :
    x.magnitude = y.magnitude ∧ (x.magnitude = 0 ∨ x.isNegative = y.isNegative) := by
  unfold rank at h
  by_cases hsign : x.isNegative = y.isNegative
  · rw [hsign] at h
    refine ⟨?_, Or.inr hsign⟩
    split at h <;> omega
  · -- A positive and a negative number of one rank are both zero.
    cases hx : x.isNegative <;> cases hy : y.isNegative <;> simp [hx, hy] at h hsign
    · have hzero : x.magnitude = 0 := by omega
      exact ⟨by omega, Or.inl hzero⟩
    · have hzero : x.magnitude = 0 := by omega
      exact ⟨by omega, Or.inl hzero⟩

/-- Equal numbers are equal to the same whole number, if to any. -/
theorem toInt?_of_eqv (h : x.eqv y = true) : x.toInt? = y.toInt? := by
  have hrank : x.rank = y.rank := by
    simp only [eqv, Bool.and_eq_true, beq_iff_eq] at h
    exact h.2
  rcases magnitude_of_rank_eq hrank with ⟨hmagnitude, hsign⟩
  have hfinite : x.isFinite = y.isFinite := by
    unfold isFinite exponentField
    rw [hmagnitude]
  have hratio : x.ratio = y.ratio := ratio_congr hmagnitude
  unfold toInt?
  rw [hfinite, ← hratio]
  rcases hsign with hzero | hsign
  · have hnum := ratio_of_magnitude_zero hzero
    simp [hnum]
  · rw [hsign]

end Binary64

namespace Value

/-- A boolean is equal to what its number is equal to. -/
theorem same_bool (v : Value) (b : Bool) : v.same (.bool b) = v.same (.int (if b then 1 else 0)) := by
  cases v with
  | bool c => simp [same, sameNumber, wholeNumber?]
  | int m => simp [same, sameNumber, wholeNumber?]
  | float x => simp [same, wholeNumber?]
  | _ => simp [same, isNull, sameDay, sameTime]

/-- What equals a value that equals a whole number equals the whole number. -/
theorem same_int_trans {v w : Value} {n : Int} (hvw : v.same w = true)
    (hw : w.same (.int n) = true) : v.same (.int n) = true := by
  cases w with
  | bool b =>
      have hn : n = if b then 1 else 0 := by simpa [same, sameNumber, wholeNumber?] using hw
      rw [same_bool, ← hn] at hvw
      exact hvw
  | int m =>
      have hn : n = m := by simpa [same, sameNumber, wholeNumber?] using hw
      rw [← hn] at hvw
      exact hvw
  | float y =>
      have hy : y.toInt? = some n := by simpa [same, wholeNumber?] using hw
      cases v with
      | float x =>
          have heqv : x.eqv y = true := by simpa [same] using hvw
          rw [← Binary64.toInt?_of_eqv heqv] at hy
          simp [same, wholeNumber?, hy]
      | bool b => simpa [same, sameNumber, wholeNumber?, hy] using hvw
      | int m => simpa [same, sameNumber, wholeNumber?, hy] using hvw
      | _ => simp [same, isNull, sameDay, sameTime] at hvw
  | _ => simp [same, isNull, sameDay, sameTime] at hw

/-- Native conversion does not change which whole number a value equals. -/
theorem toNative_same_int (v : Value) (n : Int) :
    v.toNative.same (.int n) = v.same (.int n) := by
  cases v with
  | list items => simp [same]
  | graphDate d => simp [toNative, same, sameDay]
  | graphDateTime t => simp [toNative, same, sameTime]
  | _ => rfl

end Value

end Costar
