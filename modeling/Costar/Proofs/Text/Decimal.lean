import Costar.Text.Digit
import Mathlib.Algebra.Ring.Nat
import Mathlib.Data.List.Basic

/-!
# Numbers of a fixed width

A number is written with a fixed number of decimal digits, zeros in front where it has fewer.  There
is exactly one way to write a number so, if it is small enough.

Main results:

- Definition `Text.IsNumber`: some characters are the digits of a number.
- Theorem `Text.IsNumber.eq`: a number is written in one way only.
- Theorem `Text.isNumber_iff`: namely as `Text.padDecimal` writes it.
-/

namespace Costar.Text

/-! ## Digits and their values -/

/-- Whether some characters are ASCII digits, as many as a width, and write a number in base ten. -/
structure IsNumber (width n : Nat) (cs : List Char) : Prop where
  length : cs.length = width
  digits : ∀ c ∈ cs, c.isDigit = true
  value : Nat.ofDigitChars 10 cs 0 = n

theorem asciiDigit?_eq (c : Char) :
    asciiDigit? c = if c.isDigit then some (c.toNat - 48) else none := by
  have hiff : ('0' ≤ c ∧ c ≤ '9') ↔ c.isDigit = true := by
    rw [Char.isDigit_iff_toNat]
    rfl
  simp only [asciiDigit?, hiff]

/-- Characters are read as digits if all of them are digits. -/
theorem mapM_asciiDigit?_eq_some {cs : List Char} {ds : List Nat} :
    cs.mapM asciiDigit? = some ds ↔
      (∀ c ∈ cs, c.isDigit = true) ∧ ds = cs.map (·.toNat - 48) := by
  induction cs generalizing ds with
  | nil =>
      rw [List.mapM_nil]
      constructor
      · rintro ⟨⟩
        exact ⟨nofun, rfl⟩
      · rintro ⟨-, rfl⟩
        rfl
  | cons c rest ih =>
      rw [List.mapM_cons, asciiDigit?_eq, List.forall_mem_cons]
      cases hc : c.isDigit with
      | false => simp
      | true =>
          simp only [if_true, Option.bind_eq_bind, Option.bind_some, Option.bind_eq_some_iff, ih]
          constructor
          · rintro ⟨others, ⟨hrest, rfl⟩, ⟨⟩⟩
            exact ⟨⟨trivial, hrest⟩, rfl⟩
          · rintro ⟨⟨-, hrest⟩, rfl⟩
            exact ⟨_, ⟨hrest, rfl⟩, rfl⟩

theorem ofDigits_map (cs : List Char) :
    ofDigits (cs.map (·.toNat - 48)) = Nat.ofDigitChars 10 cs 0 := by
  rw [ofDigits, List.foldl_map, Nat.ofDigitChars_eq_foldl]
  rfl

theorem digit_lt {c : Char} (h : c.isDigit = true) : c.toNat - '0'.toNat < 10 := by
  have hle : c.toNat ≤ 57 := (Char.isDigit_iff_toNat.mp h).2
  have hzero : '0'.toNat = 48 := rfl
  omega

theorem eq_of_digit_eq {c d : Char} (hc : c.isDigit = true) (hd : d.isDigit = true)
    (h : c.toNat - '0'.toNat = d.toNat - '0'.toNat) : c = d := by
  have hlec := (Char.isDigit_iff_toNat.mp hc).1
  have hled := (Char.isDigit_iff_toNat.mp hd).1
  apply Char.toNat_inj.mp
  omega

/-! ## One way to write a number -/

namespace IsNumber

variable {width n : Nat} {cs ds : List Char}

/-- The first digit and the number behind it. -/
theorem cons_iff {c : Char} : IsNumber (width + 1) n (c :: cs) ↔
    c.isDigit = true ∧ ∃ m, n = 10 ^ width * (c.toNat - '0'.toNat) + m ∧ IsNumber width m cs := by
  constructor
  · intro h
    rcases List.forall_mem_cons.mp h.digits with ⟨hc, hcs⟩
    have hlength : cs.length = width := Nat.succ.inj h.length
    refine ⟨hc, Nat.ofDigitChars 10 cs 0, ?_, hlength, hcs, rfl⟩
    rw [← h.value, Nat.ofDigitChars_cons, Nat.ofDigitChars_eq_ofDigitChars_zero, hlength]
    simp
  · rintro ⟨hc, m, rfl, h⟩
    refine ⟨by rw [List.length_cons, h.length], List.forall_mem_cons.mpr ⟨hc, h.digits⟩, ?_⟩
    rw [Nat.ofDigitChars_cons, Nat.ofDigitChars_eq_ofDigitChars_zero, h.length, h.value]
    simp

theorem lt_pow (h : IsNumber width n cs) : n < 10 ^ width := by
  induction cs generalizing width n with
  | nil =>
      rw [← h.value, ← h.length]
      decide
  | cons c rest ih =>
      obtain rfl : width = rest.length + 1 := h.length.symm
      rcases cons_iff.mp h with ⟨hc, m, rfl, hrest⟩
      have hm := ih hrest
      have hdigit := Nat.mul_le_mul_left (10 ^ rest.length) (Nat.le_of_lt_succ (digit_lt hc))
      rw [Nat.pow_succ]
      omega

/-- A number is written with a number of digits in one way only. -/
theorem eq (hc : IsNumber width n cs) (hd : IsNumber width n ds) : cs = ds := by
  induction cs generalizing width n ds with
  | nil =>
      rw [← hc.length] at hd
      exact (List.eq_nil_of_length_eq_zero hd.length).symm
  | cons c rest ih =>
      obtain rfl : width = rest.length + 1 := hc.length.symm
      rcases List.exists_cons_of_length_eq_add_one hd.length with ⟨d, others, rfl⟩
      rcases cons_iff.mp hc with ⟨hdigitC, m, hn, hrest⟩
      rcases cons_iff.mp hd with ⟨hdigitD, k, rfl, hothers⟩
      -- The first digit is the quotient by a power of ten, and the others write the remainder.
      have hquotient := congrArg (· / 10 ^ rest.length) hn
      have hpos : 0 < 10 ^ rest.length := Nat.pow_pos (by decide)
      simp only [Nat.mul_add_div hpos, Nat.div_eq_of_lt hothers.lt_pow,
        Nat.div_eq_of_lt hrest.lt_pow, Nat.add_zero] at hquotient
      obtain rfl := eq_of_digit_eq hdigitC hdigitD hquotient.symm
      obtain rfl : k = m := Nat.add_left_cancel hn
      rw [ih hrest hothers]

end IsNumber

/-! ## Numbers with zeros in front -/

theorem toList_pushn (s : String) (c : Char) (n : Nat) :
    (s.pushn c n).toList = s.toList ++ List.replicate n c := by
  rw [String.pushn_eq_repeat_push]
  induction n with
  | zero => simp [Nat.repeat]
  | succ n ih => rw [Nat.repeat, String.toList_push, ih, List.replicate_succ', List.append_assoc]

theorem toList_padDecimal (width n : Nat) : (padDecimal width n).toList =
    List.replicate (width - (Nat.toDigits 10 n).length) '0' ++ Nat.toDigits 10 n := by
  have hdigits : (toString n).toList = Nat.toDigits 10 n := by
    rw [Nat.toString_eq_ofList_toDigits, String.toList_ofList]
  rw [padDecimal, String.toList_append, toList_pushn, ← String.length_toList, hdigits]
  simp

theorem isNumber_padDecimal {width n : Nat} (hwidth : 0 < width) (h : n < 10 ^ width) :
    IsNumber width n (padDecimal width n).toList := by
  have hlength := (Nat.length_toDigits_le_iff (by decide) hwidth).mpr h
  rw [toList_padDecimal]
  constructor
  · rw [List.length_append, List.length_replicate]
    omega
  · intro c hc
    rcases List.mem_append.mp hc with hzero | hdigit
    · rw [List.eq_of_mem_replicate hzero]
      rfl
    · exact Nat.isDigit_of_mem_toDigits (by decide) (by decide) hdigit
  · rw [Nat.ofDigitChars_append, Nat.ofDigitChars_replicate_zero, Nat.mul_zero,
      Nat.ofDigitChars_ten_toDigits]

/-- The characters that write a number are those of its decimal text with zeros in front. -/
theorem isNumber_iff {width n : Nat} {cs : List Char} (hwidth : 0 < width) (h : n < 10 ^ width) :
    IsNumber width n cs ↔ (padDecimal width n).toList = cs := by
  have hpad := isNumber_padDecimal hwidth h
  constructor
  · exact hpad.eq
  · rintro rfl
    exact hpad

end Costar.Text
