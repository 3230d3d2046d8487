import Costar.Proofs.Value.Same
import Mathlib.Tactic.Positivity
import Mathlib.Tactic.Ring

/-!
# Whole numbers without a binary64 number near them

Rounding a whole number gives an infinity from a bound on: the middle between the largest finite
number and the power of two that would follow it.  The middle itself goes up, since the significand
of the largest finite number is odd.

Main results:

- Theorem `Binary64.le_divNearest_iff`: from where on a quotient is rounded up to an even number.
- Theorem `Binary64.isInfinite_ofMagnitude`: a magnitude is that of an infinity or below it.
- Theorem `Binary64.ofInt?_eq_none_iff`: the whole numbers that are too large are those from the
  bound on, in absolute value.
-/

namespace Costar

namespace Binary64

/-- The least whole number that is too large for the format. -/
def overflowBound : Nat := 2 ^ 1024 - 2 ^ 970

theorem overflowBound_eq : overflowBound = (2 ^ 54 - 1) * 2 ^ 970 := by
  unfold overflowBound
  rw [show 1024 = 54 + 970 from rfl, pow_add, Nat.sub_mul, Nat.one_mul]

theorem overflowBound_pos : 0 < overflowBound := by
  rw [overflowBound_eq]
  positivity

/-! ## Rounding of quotients -/

variable {num den k : Nat}

/-- A quotient is rounded up to an even number from the middle below that number on. -/
theorem le_divNearest_iff (hden : 0 < den) (hpos : 0 < k) (heven : k % 2 = 0) :
    k ≤ divNearest num den ↔ (2 * k - 1) * den ≤ 2 * num := by
  have hnum : den * (num / den) + num % den = num := Nat.div_add_mod num den
  have hr : num % den < den := Nat.mod_lt num hden
  have hnearest : num / den ≤ divNearest num den ∧ divNearest num den ≤ num / den + 1 := by
    unfold divNearest
    dsimp only
    split
    · omega
    · split
      · omega
      · split <;> omega
  rcases Nat.lt_trichotomy k (num / den + 1) with hbelow | hnext | habove
  · have hle : (2 * k - 1) * den ≤ 2 * (den * (num / den)) := by
      calc (2 * k - 1) * den ≤ (2 * (num / den)) * den := Nat.mul_le_mul_right den (by omega)
        _ = 2 * (den * (num / den)) := by ring
    constructor <;> intro _ <;> omega
  · -- The even number is the upper neighbour, so a tie goes there.
    have hmiddle : (2 * k - 1) * den = 2 * (den * (num / den)) + den := by
      have hodd : 2 * k - 1 = 2 * (num / den) + 1 := by omega
      rw [hodd]
      ring
    have hup : divNearest num den = num / den + 1 ↔ den ≤ 2 * (num % den) := by
      unfold divNearest
      dsimp only
      split
      · omega
      · split
        · omega
        · rw [if_neg (by omega)]
          omega
    constructor
    · intro hle
      have hmod := hup.mp (by omega)
      omega
    · intro hle
      have heq := hup.mpr (by omega)
      omega
  · have hlt : 2 * (den * (num / den)) + 3 * den ≤ (2 * k - 1) * den := by
      calc 2 * (den * (num / den)) + 3 * den = (2 * (num / den) + 3) * den := by ring
        _ ≤ (2 * k - 1) * den := Nat.mul_le_mul_right den (by omega)
    constructor <;> intro _ <;> omega

/-! ## Infinities -/

theorem magnitude_ofMagnitude (negative : Bool) {m : Nat} (h : m < signBit) :
    (ofMagnitude negative m).magnitude = m := by
  have hword : ∀ n : Nat, n < 2 ^ 64 → (UInt64.ofNat n).toNat = n := fun n hn => by
    rw [UInt64.toNat_ofNat']
    exact Nat.mod_eq_of_lt hn
  unfold magnitude word ofMagnitude
  unfold signBit at *
  cases negative with
  | false =>
      rw [if_neg (by decide), hword m (by omega)]
      omega
  | true =>
      rw [if_pos rfl, hword _ (by omega)]
      omega

/-- A magnitude up to that of the infinities is that of an infinity only if it is equal to it. -/
theorem isInfinite_ofMagnitude (negative : Bool) {m : Nat} (h : m ≤ infiniteMagnitude) :
    (ofMagnitude negative m).isInfinite = true ↔ m = infiniteMagnitude := by
  have hmagnitude : (ofMagnitude negative m).magnitude = m :=
    magnitude_ofMagnitude negative (by unfold infiniteMagnitude at h; unfold signBit; omega)
  unfold isInfinite exponentField
  rw [fraction_eq_mod, hmagnitude, Bool.and_eq_true, beq_iff_eq, beq_iff_eq]
  unfold infiniteMagnitude leadingBit at *
  omega

/-! ## Rounding of whole numbers -/

/-- The significand of a whole number is scaled so that it has fifty-three bits. -/
theorem scaleOf_one (hnum : num ≠ 0) : scaleOf num 1 = (num.log2 : Int) - 52 := by
  have hlog : Nat.log2 1 = 0 := by decide
  have hle : ¬ num < 1 * Nat.pow 2 num.log2 := by
    rw [Nat.one_mul]
    exact Nat.not_lt.mpr (Nat.log2_self_le hnum)
  unfold scaleOf
  rw [hlog]
  simp only [Nat.cast_zero, Int.sub_zero]
  change max (if num < 1 * Nat.pow 2 num.log2 then _ else _) _ = _
  rw [if_neg hle]
  omega

/-- The magnitude that a whole number is rounded to before it is cut at the infinities. -/
def roundedMagnitude (num : Nat) : Nat :=
  let scaled := unscale num 1 (scaleOf num 1)
  (scaleOf num 1 + 1074).toNat * leadingBit + divNearest scaled.1 scaled.2

theorem ofRatio_one (negative : Bool) (hnum : num ≠ 0) :
    ofRatio negative num 1 = ofMagnitude negative (min (roundedMagnitude num) infiniteMagnitude) := by
  unfold ofRatio roundedMagnitude
  rw [if_neg hnum]

/-- A whole number of fewer than fifty-three bits stays far below the infinities. -/
theorem roundedMagnitude_lt (hnum : num ≠ 0) (hlog : num.log2 < 52) :
    roundedMagnitude num < infiniteMagnitude := by
  obtain ⟨e, he⟩ : ∃ e, num.log2 + (e + 1) = 52 := ⟨51 - num.log2, by omega⟩
  have hscale : scaleOf num 1 = .negSucc e := by
    rw [scaleOf_one hnum]
    omega
  have hrounded : roundedMagnitude num =
      (num.log2 + 1022) * leadingBit + divNearest (num * 2 ^ (e + 1)) 1 := by
    unfold roundedMagnitude
    rw [hscale]
    have hexponent : (Int.negSucc e + 1074).toNat = num.log2 + 1022 := by omega
    rw [hexponent]
    rfl
  have hhigh : num * 2 ^ (e + 1) < 2 ^ 53 := by
    calc num * 2 ^ (e + 1) < 2 ^ (num.log2 + 1) * 2 ^ (e + 1) :=
          Nat.mul_lt_mul_of_pos_right Nat.lt_log2_self (Nat.two_pow_pos _)
      _ = 2 ^ 53 := by rw [← pow_add]; congr 1; omega
  have hnearest : ¬ 2 ^ 53 + 2 ≤ divNearest (num * 2 ^ (e + 1)) 1 := by
    rw [le_divNearest_iff Nat.one_pos (by omega) (by omega)]
    omega
  rw [hrounded]
  unfold infiniteMagnitude leadingBit
  omega

/-- The significand of a larger whole number is rounded to one of fifty-three bits, or to the next
power of two. -/
theorem roundedMagnitude_eq (hnum : num ≠ 0) {e : Nat} (hlog : num.log2 = 52 + e) :
    ∃ r, roundedMagnitude num = (e + 1074) * leadingBit + r ∧ 2 ^ 52 ≤ r ∧ r < 2 ^ 53 + 2 ∧
      (2 ^ 53 ≤ r ↔ (2 ^ 54 - 1) * 2 ^ e ≤ 2 * num) := by
  have hscale : scaleOf num 1 = .ofNat e := by
    rw [scaleOf_one hnum, hlog]
    simp
  have hrounded : roundedMagnitude num = (e + 1074) * leadingBit + divNearest num (1 * 2 ^ e) := by
    unfold roundedMagnitude
    rw [hscale]
    rfl
  rw [Nat.one_mul] at hrounded
  have hpos : 0 < 2 ^ e := Nat.two_pow_pos e
  have hlow : 2 ^ 52 * 2 ^ e ≤ num := by
    rw [← pow_add, ← hlog]
    exact Nat.log2_self_le hnum
  have hhigh : num < 2 ^ 53 * 2 ^ e := by
    rw [← pow_add, Nat.add_comm 53 e, ← Nat.add_assoc e 52 1, Nat.add_comm e 52, ← hlog]
    exact Nat.lt_log2_self
  refine ⟨_, hrounded, ?_, ?_, ?_⟩
  · rw [le_divNearest_iff hpos (by omega) (by omega)]
    omega
  · rw [← Nat.not_le, le_divNearest_iff hpos (by omega) (by omega)]
    omega
  · exact le_divNearest_iff hpos (by omega) (by omega)

/-- A whole number reaches the magnitude of the infinities from the bound on. -/
theorem le_roundedMagnitude_iff (hnum : num ≠ 0) :
    infiniteMagnitude ≤ roundedMagnitude num ↔ overflowBound ≤ num := by
  have hhigh : num < 2 ^ (num.log2 + 1) := Nat.lt_log2_self
  have hbound := overflowBound_eq
  have hmono : ∀ {a b : Nat}, a ≤ b → 2 ^ a ≤ 2 ^ b := Nat.pow_le_pow_right Nat.two_pos
  rcases Nat.lt_or_ge num.log2 52 with hsmall | hlarge
  · have hlt := roundedMagnitude_lt hnum hsmall
    have hpow : 2 ^ (num.log2 + 1) ≤ 2 ^ 970 := hmono (by omega)
    omega
  · obtain ⟨e, he⟩ : ∃ e, num.log2 = 52 + e := ⟨num.log2 - 52, by omega⟩
    obtain ⟨r, hr, hleast, hmost, htop⟩ := roundedMagnitude_eq hnum he
    rw [hr]
    unfold infiniteMagnitude leadingBit
    rcases Nat.lt_trichotomy e 971 with hbelow | rfl | habove
    · have hpow : 2 ^ (num.log2 + 1) ≤ 2 ^ 53 * 2 ^ 970 := by
        rw [← pow_add]
        exact hmono (by omega)
      omega
    · rw [pow_succ] at htop
      omega
    · have hpow : 2 ^ 54 * 2 ^ 970 ≤ 2 ^ num.log2 := by
        rw [← pow_add]
        exact hmono (by omega)
      have hlow : 2 ^ num.log2 ≤ num := Nat.log2_self_le hnum
      omega

/-- A whole number is too large for the format from the bound on, in absolute value. -/
theorem ofInt?_eq_none_iff {n : Int} : ofInt? n = none ↔ overflowBound ≤ n.natAbs := by
  have hnone : ofInt? n = none ↔ (ofRatio (decide (n < 0)) n.natAbs 1).isInfinite = true := by
    unfold ofInt?
    simp
  rw [hnone]
  by_cases hn : n.natAbs = 0
  · have hzero : n = 0 := Int.natAbs_eq_zero.mp hn
    subst hzero
    have hfinite : (ofRatio (decide ((0 : Int) < 0)) (Int.natAbs 0) 1).isInfinite = false := by
      decide
    rw [hfinite]
    constructor
    · intro h
      cases h
    · intro h
      exact absurd h (Nat.not_le.mpr overflowBound_pos)
  · rw [ofRatio_one _ hn, isInfinite_ofMagnitude _ (Nat.min_le_right _ _), min_eq_right_iff,
      le_roundedMagnitude_iff hn]

end Binary64

end Costar
