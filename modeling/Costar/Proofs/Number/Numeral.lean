import Costar.Number.Numeral
import Costar.Proofs.Text.Decimal
import Mathlib.Data.List.Induction

/-!
# Whole numbers in text

Whole numbers are read from a limited number of digits, while all their digits are written.  The two
agree: a number that can be read at all has few enough digits, and it is read back from the text
that it is written as.

Main results:

- Theorem `Numeral.length_le_digitLimit`: a number that was read is within the limit.
- Theorem `Numeral.int_toString`: within the limit, a number is read back from its text.
- Theorem `Numeral.exists_int_iff`: so the numbers that can be read are those read back from theirs.
-/

namespace Costar

namespace Text

/-! ## Digits of any script -/

theorem digitValue?_lt {c : Char} {d : Nat} (h : digitValue? c = some d) : d < 10 := by
  obtain ⟨first, hfirst, rfl⟩ := Option.map_eq_some_iff.mp h
  have hrange := List.find?_some hfirst
  simp only [Bool.and_eq_true, decide_eq_true_eq] at hrange
  omega

theorem digitValue?_of_isDigit {c : Char} (h : c.isDigit = true) :
    digitValue? c = some (c.toNat - 48) := by
  obtain ⟨hlow, hhigh⟩ : 48 ≤ c.toNat ∧ c.toNat ≤ 57 := Char.isDigit_iff_toNat.mp h
  have hzero : (decide (0x30 ≤ c.toNat) && decide (c.toNat < 0x30 + 10)) = true := by
    simp only [Bool.and_eq_true, decide_eq_true_eq]
    omega
  have hzeros : digitZeros = 0x30 :: digitZeros.tail := rfl
  rw [digitValue?, hzeros, List.find?_cons, hzero]
  rfl

theorem ofDigits_lt {ds : List Nat} (h : ∀ d ∈ ds, d < 10) : ofDigits ds < 10 ^ ds.length := by
  induction ds using List.reverseRecOn with
  | nil => decide
  | append_singleton ds d ih =>
      have hds := ih fun e he => h e (List.mem_append_left _ he)
      have hd := h d (List.mem_append_right _ (List.mem_singleton_self d))
      have hstep : ofDigits (ds ++ [d]) = 10 * ofDigits ds + d := by
        rw [ofDigits, List.foldl_append]
        rfl
      rw [hstep, List.length_append, List.length_singleton, Nat.pow_succ]
      omega

end Text

namespace Numeral

/-! ## Runs of digits -/

theorem moreDigits_lt (cs : List Char) : ∀ d ∈ (moreDigits cs).1, d < 10 := by
  fun_induction moreDigits cs with
  | case1 c cs d hd ih => exact List.forall_mem_cons.mpr ⟨Text.digitValue?_lt hd, ih⟩
  | case2 => exact List.forall_mem_nil _
  | case3 c cs _ d hd ih => exact List.forall_mem_cons.mpr ⟨Text.digitValue?_lt hd, ih⟩
  | case4 => exact List.forall_mem_nil _
  | case5 => exact List.forall_mem_nil _

theorem digits_lt (cs : List Char) : ∀ d ∈ (digits cs).1, d < 10 := by
  unfold digits
  split
  · split
    · next d hd => exact List.forall_mem_cons.mpr ⟨Text.digitValue?_lt hd, moreDigits_lt _⟩
    · exact List.forall_mem_nil _
  · exact List.forall_mem_nil _

theorem moreDigits_of_digits {cs : List Char} (h : ∀ c ∈ cs, c.isDigit = true) :
    moreDigits cs = (cs.map (·.toNat - 48), []) := by
  induction cs with
  | nil => rfl
  | cons c cs ih =>
      rw [List.forall_mem_cons] at h
      have hunderscore : c ≠ '_' := by
        rintro rfl
        cases h.1
      rw [moreDigits, Text.digitValue?_of_isDigit h.1, ih h.2]
      · rfl
      · rintro _ _ rfl
        exact absurd rfl hunderscore

theorem digits_of_digits {cs : List Char} (h : ∀ c ∈ cs, c.isDigit = true) :
    digits cs = (cs.map (·.toNat - 48), []) := by
  cases cs with
  | nil => rfl
  | cons c cs =>
      rw [List.forall_mem_cons] at h
      rw [digits, Text.digitValue?_of_isDigit h.1, moreDigits_of_digits h.2]
      rfl

/-! ## Reading -/

theorem natAbs_signed (negative : Bool) (n : Nat) : (signed negative n).natAbs = n := by
  cases negative <;> simp [signed]

theorem length_toString_le {n width : Nat} (hwidth : 0 < width) :
    (toString n).length ≤ width ↔ n < 10 ^ width := by
  rw [Nat.toString_eq_ofList_toDigits, String.length_ofList]
  exact Nat.length_toDigits_le_iff (by decide) hwidth

/-- A whole number that was read has no more digits than can be read. -/
theorem length_le_digitLimit {text : String} {n : Int} (h : int text = .ok n) :
    (toString n.natAbs).length ≤ digitLimit := by
  rw [length_toString_le (by decide)]
  unfold int at h
  dsimp only at h
  split at h
  · cases h
  · split at h
    · cases h
    · next hlimit =>
        split at h
        · cases h
          rw [natAbs_signed]
          exact Nat.lt_of_lt_of_le (Text.ofDigits_lt (digits_lt _))
            (Nat.pow_le_pow_right (by decide) (Nat.le_of_not_lt hlimit))
        · cases h

/-! ## Writing -/

theorem isBlank_eq_false {c : Char} (h : c = '-' ∨ c.isDigit = true) : isBlank c = false := by
  have hblank : Text.isBlank c = false := by
    rcases h with rfl | h
    · decide
    · obtain ⟨hlow, hhigh⟩ : 48 ≤ c.toNat ∧ c.toNat ≤ 57 := Char.isDigit_iff_toNat.mp h
      simp [Text.isBlank, Text.blankRanges]
      omega
  rw [isBlank, hblank, Bool.false_and]

theorem dropWhile_isBlank {cs : List Char} (h : ∀ c ∈ cs, c = '-' ∨ c.isDigit = true) :
    cs.dropWhile isBlank = cs := by
  cases cs with
  | nil => rfl
  | cons c rest =>
      have hc := isBlank_eq_false (h c List.mem_cons_self)
      exact List.dropWhile_cons_of_neg (by simp [hc])

theorem trimBy_isBlank {cs : List Char} (h : ∀ c ∈ cs, c = '-' ∨ c.isDigit = true) :
    Text.trimBy isBlank cs = cs := by
  rw [Text.trimBy, dropWhile_isBlank h,
    dropWhile_isBlank fun c hc => h c (List.mem_reverse.mp hc), List.reverse_reverse]

theorem isDigit_toString (n : Nat) : ∀ c ∈ (toString n).toList, c.isDigit = true := by
  rw [Nat.toString_eq_ofList_toDigits, String.toList_ofList]
  intro c hc
  exact Nat.isDigit_of_mem_toDigits (by decide) (by decide) hc

/-- The digits of a number are read behind the sign that stands before them. -/
theorem int_of_sign {text : String} {negative : Bool} {n : Nat}
    (hsign : sign (Text.trimBy isBlank text.toList) = (negative, (toString n).toList))
    (h : (toString n).length ≤ digitLimit) : int text = .ok (signed negative n) := by
  have hvalue : Text.ofDigits ((toString n).toList.map (·.toNat - 48)) = n := by
    rw [Text.ofDigits_map, Nat.toString_eq_ofList_toDigits, String.toList_ofList,
      Nat.ofDigitChars_ten_toDigits]
  have hlimit : ¬ digitLimit < ((toString n).toList.map (·.toNat - 48)).length := by
    rw [List.length_map, String.length_toList]
    exact Nat.not_lt.mpr h
  unfold int
  rw [hsign]
  simp only [digits_of_digits (isDigit_toString n), hvalue, if_neg hlimit]
  simp

theorem sign_of_digits {cs : List Char} (h : ∀ c ∈ cs, c.isDigit = true) :
    sign cs = (false, cs) := by
  unfold sign
  split
  · exact absurd (h '-' List.mem_cons_self) (by decide)
  · exact absurd (h '+' List.mem_cons_self) (by decide)
  · rfl

/-- Within the limit, a whole number is read back from the text that it is written as. -/
theorem int_toString {n : Int} (h : (toString n.natAbs).length ≤ digitLimit) :
    int (toString n) = .ok n := by
  cases n with
  | ofNat m =>
      have hdigits := isDigit_toString m
      have hsign : sign (Text.trimBy isBlank (toString m).toList) = (false, (toString m).toList) := by
        rw [trimBy_isBlank fun c hc => Or.inr (hdigits c hc), sign_of_digits hdigits]
      exact int_of_sign hsign h
  | negSucc m =>
      have hchars : (toString (Int.negSucc m)).toList = '-' :: (toString (m + 1)).toList := by
        rw [show toString (Int.negSucc m) = "-" ++ toString (m + 1) from rfl, String.toList_append]
        rfl
      have hcs : ∀ c ∈ '-' :: (toString (m + 1)).toList, c = '-' ∨ c.isDigit = true :=
        List.forall_mem_cons.mpr ⟨Or.inl rfl, fun c hc => Or.inr (isDigit_toString (m + 1) c hc)⟩
      have hsign : sign (Text.trimBy isBlank (toString (Int.negSucc m)).toList) =
          (true, (toString (m + 1)).toList) := by
        rw [hchars, trimBy_isBlank hcs]
        rfl
      exact int_of_sign hsign h

/-- The whole numbers that can be read are those that are read back from their own text. -/
theorem exists_int_iff {n : Int} : (∃ text, int text = .ok n) ↔ int (toString n) = .ok n := by
  constructor
  · rintro ⟨text, h⟩
    exact int_toString (length_le_digitLimit h)
  · intro h
    exact ⟨toString n, h⟩

end Numeral

end Costar
