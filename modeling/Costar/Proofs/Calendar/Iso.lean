import Costar.Calendar.Iso
import Costar.Proofs.Text.Decimal
import Mathlib.Algebra.GroupWithZero.Nat

/-!
# Which texts are dates

A text is read as a date if it is one of the forms of ISO 8601 that are read, and it names a day.
One of the forms, `YYYY-MM-DD`, is the one in which dates are written.  The others are the basic
form without hyphens, behind which two more bytes may stand, and the dates by week.

Main results:

- Definition `Date.Written`: a text is `YYYY-MM-DD` and names a day.
- Definition `Date.WrittenOtherwise`: it is one of the other forms and names a day.
- Theorem `Date.written_iff`: the first are the texts of dates.
- Theorem `Date.ofIso?_eq_some`: both are read, and nothing else is.
- Theorem `Date.not_writtenOtherwise`: no text is of both kinds.
-/

namespace Costar

open Text (IsNumber)

/-! ## Sizes in bytes -/

namespace Calendar

/-- The size of some characters in bytes. -/
def byteSize (cs : List Char) : Nat :=
  (cs.map Char.utf8Size).sum

@[simp]
theorem byteSize_cons (c : Char) (cs : List Char) : byteSize (c :: cs) = c.utf8Size + byteSize cs :=
  List.sum_cons

@[simp]
theorem byteSize_append (cs ds : List Char) : byteSize (cs ++ ds) = byteSize cs + byteSize ds := by
  rw [byteSize, List.map_append, List.sum_append, byteSize, byteSize]

theorem byteSize_eq_zero {cs : List Char} : byteSize cs = 0 ↔ cs = [] := by
  cases cs with
  | nil => simp [byteSize]
  | cons c cs =>
      have hpos := c.utf8Size_pos
      rw [byteSize_cons]
      simp only [reduceCtorEq, iff_false]
      omega

theorem utf8ByteSize_eq (s : String) : s.utf8ByteSize = byteSize s.toList := by
  rw [← String.ofList_toList (s := s), String.toList_ofList]
  induction s.toList with
  | nil => rfl
  | cons c cs ih =>
      rw [String.ofList_cons, String.utf8ByteSize_append, String.utf8ByteSize_singleton, ih,
        byteSize_cons]

theorem utf8Size_of_isDigit {c : Char} (h : c.isDigit = true) : c.utf8Size = 1 := by
  rw [Char.utf8Size_eq_one_iff, UInt32.le_iff_toNat_le]
  exact Nat.le_trans (Char.isDigit_iff_toNat.mp h).2 (by decide)

/-- A digit takes one byte. -/
theorem byteSize_of_digits {cs : List Char} (h : ∀ c ∈ cs, c.isDigit = true) :
    byteSize cs = cs.length := by
  induction cs with
  | nil => rfl
  | cons c cs ih =>
      rcases List.forall_mem_cons.mp h with ⟨hc, hcs⟩
      rw [byteSize_cons, utf8Size_of_isDigit hc, ih hcs, List.length_cons, Nat.add_comm]

end Calendar

namespace Text.IsNumber

variable {width n : Nat} {cs : List Char}

theorem byteSize (h : IsNumber width n cs) : Calendar.byteSize cs = width := by
  rw [Calendar.byteSize_of_digits h.digits, h.length]

/-- A number begins with a digit. -/
theorem exists_cons (h : IsNumber (width + 1) n cs) : ∃ c rest, cs = c :: rest ∧ c.isDigit = true := by
  rcases List.exists_cons_of_length_eq_add_one h.length with ⟨c, rest, rfl⟩
  exact ⟨c, rest, rfl, h.digits c List.mem_cons_self⟩

end Text.IsNumber

/-! ## Reading the parts of a date -/

theorem Date.make?_eq_some {y m k : Nat} {d : Date} :
    make? y m k = some d ↔ d.year = y ∧ d.month = m ∧ d.day = k := by
  unfold make?
  constructor
  · intro h
    split at h
    · cases h
      exact ⟨rfl, rfl, rfl⟩
    · cases h
  · rintro ⟨rfl, rfl, rfl⟩
    rw [dif_pos d.isReal]

namespace Calendar

theorem number?_eq_some {width n : Nat} {cs rest : List Char} :
    number? width cs = some (n, rest) ↔ ∃ ds, cs = ds ++ rest ∧ IsNumber width n ds := by
  unfold number?
  constructor
  · intro h
    split at h
    · rename_i ds hds
      rcases Text.mapM_asciiDigit?_eq_some.mp hds with ⟨hdigits, rfl⟩
      split at h
      · rename_i hlength
        rw [List.length_map] at hlength
        cases h
        refine ⟨cs.take width, (List.take_append_drop width cs).symm, hlength, hdigits, ?_⟩
        exact (Text.ofDigits_map _).symm
      · cases h
    · cases h
  · rintro ⟨ds, rfl, h⟩
    have htake : (ds ++ rest).take width = ds := by rw [← h.length, List.take_left]
    have hdrop : (ds ++ rest).drop width = rest := by rw [← h.length, List.drop_left]
    rw [htake, hdrop, Text.mapM_asciiDigit?_eq_some.mpr ⟨h.digits, rfl⟩]
    simp [h.length, Text.ofDigits_map, h.value]

/-- What stands between the parts of a date. -/
def separator (extended : Bool) : List Char :=
  if extended then ['-'] else []

/-- The characters behind a separator. -/
def afterSeparator? (extended : Bool) (cs : List Char) : Option (List Char) :=
  if extended then (if cs.head? = some '-' then some cs.tail else none) else some cs

theorem afterSeparator?_eq_some {extended : Bool} {cs rest : List Char} :
    afterSeparator? extended cs = some rest ↔ cs = separator extended ++ rest := by
  cases extended with
  | false => simp [afterSeparator?, separator]
  | true =>
      cases cs with
      | nil => simp [afterSeparator?, separator]
      | cons c cs => simp [afterSeparator?, separator]

variable {y : Nat} {extended : Bool} {cs : List Char} {d : Date}

/-- The part of a date by month behind the year. -/
theorem monthAndDay?_eq_some :
    monthAndDay? y extended cs = some d ↔
      d.year = y ∧ ∃ month day rest, cs = month ++ (separator extended ++ (day ++ rest)) ∧
        IsNumber 2 d.month month ∧ IsNumber 2 d.day day := by
  have heq : monthAndDay? y extended cs = (number? 2 cs).bind fun p =>
      (afterSeparator? extended p.2).bind fun rest =>
        (number? 2 rest).bind fun q => Date.make? y p.1 q.1 := by
    cases extended <;> rfl
  simp only [heq, Option.bind_eq_some_iff, Prod.exists, number?_eq_some, afterSeparator?_eq_some,
    Date.make?_eq_some]
  constructor
  · rintro ⟨m, _, ⟨month, rfl, hmonth⟩, _, rfl, k, rest, ⟨day, rfl, hday⟩, hyear, rfl, rfl⟩
    exact ⟨hyear, month, day, rest, rfl, hmonth, hday⟩
  · rintro ⟨hyear, month, day, rest, rfl, hmonth, hday⟩
    exact ⟨d.month, _, ⟨month, rfl, hmonth⟩, _, rfl, d.day, rest, ⟨day, rfl, hday⟩, hyear, rfl, rfl⟩

/-- The part of a date by week behind the `W`. -/
theorem weekAndDay?_eq_some :
    weekAndDay? y extended cs = some d ↔
      ∃ w week, IsNumber 2 w week ∧
        (cs = week ∧ Date.ofWeek? y w 1 = some d ∨
          ∃ k day rest, cs = week ++ (separator extended ++ (day ++ rest)) ∧ IsNumber 1 k day ∧
            Date.ofWeek? y w k = some d) := by
  have heq : weekAndDay? y extended cs = (number? 2 cs).bind fun p =>
      if p.2.isEmpty then Date.ofWeek? y p.1 1
      else (afterSeparator? extended p.2).bind fun rest =>
        (number? 1 rest).bind fun q => Date.ofWeek? y p.1 q.1 := by
    cases extended <;> rfl
  simp only [heq, Option.bind_eq_some_iff, Prod.exists, number?_eq_some]
  constructor
  · rintro ⟨w, behind, ⟨week, rfl, hweek⟩, h⟩
    refine ⟨w, week, hweek, ?_⟩
    split at h
    · rename_i hempty
      rw [List.isEmpty_iff.mp hempty, List.append_nil]
      exact Or.inl ⟨rfl, h⟩
    · simp only [Option.bind_eq_some_iff, Prod.exists, number?_eq_some,
        afterSeparator?_eq_some] at h
      rcases h with ⟨_, rfl, k, rest, ⟨day, rfl, hday⟩, hd⟩
      exact Or.inr ⟨k, day, rest, rfl, hday, hd⟩
  · rintro ⟨w, week, hweek, ⟨rfl, hd⟩ | ⟨k, day, rest, rfl, hday, hd⟩⟩
    · exact ⟨w, [], ⟨cs, (List.append_nil cs).symm, hweek⟩, hd⟩
    · refine ⟨w, _, ⟨week, rfl, hweek⟩, ?_⟩
      -- What stands behind the week holds a digit at least.
      rcases hday.exists_cons with ⟨c, others, rfl, -⟩
      rw [if_neg (by simp)]
      simp only [Option.bind_eq_some_iff, Prod.exists, number?_eq_some, afterSeparator?_eq_some]
      exact ⟨_, rfl, k, rest, ⟨_, rfl, hday⟩, hd⟩

/-- Reads what stands behind the year of a date. -/
def afterYear? (year : Nat) : List Char → Option Date
  | '-' :: 'W' :: rest => weekAndDay? year true rest
  | '-' :: rest => monthAndDay? year true rest
  | 'W' :: rest => weekAndDay? year false rest
  | rest => monthAndDay? year false rest

theorem afterYear?_eq_some :
    afterYear? y cs = some d ↔ ∃ extended rest,
      cs = separator extended ++ rest ∧ monthAndDay? y extended rest = some d ∨
        cs = separator extended ++ 'W' :: rest ∧ weekAndDay? y extended rest = some d := by
  constructor
  · intro h
    unfold afterYear? at h
    split at h
    · exact ⟨true, _, Or.inr ⟨rfl, h⟩⟩
    · exact ⟨true, _, Or.inl ⟨rfl, h⟩⟩
    · exact ⟨false, _, Or.inr ⟨rfl, h⟩⟩
    · exact ⟨false, _, Or.inl ⟨rfl, h⟩⟩
  · rintro ⟨extended, rest, ⟨rfl, h⟩ | ⟨rfl, h⟩⟩
    · -- A month begins with a digit, so it is taken neither for a hyphen nor for a week.
      obtain ⟨-, month, day, behind, rfl, hmonth, -⟩ := monthAndDay?_eq_some.mp h
      rcases hmonth.exists_cons with ⟨c, others, rfl, hdigit⟩
      have hhyphen : c ≠ '-' := by
        rintro rfl
        cases hdigit
      have hweek : c ≠ 'W' := by
        rintro rfl
        cases hdigit
      cases extended with
      | false => simpa [afterYear?, separator, hhyphen, hweek] using h
      | true => simpa [afterYear?, separator, hweek] using h
    · cases extended <;> exact h

/-! ## Sizes of dates -/

/-- Whether a text of some size in bytes is read at all. -/
def IsDateSize (size : Nat) : Prop :=
  size = 7 ∨ size = 8 ∨ size = 10

/-- Whether some characters may stand behind a date: none, or two bytes behind a basic form. -/
def Ignored (extended : Bool) (rest : List Char) : Prop :=
  byteSize rest = 0 ∨ extended = false ∧ byteSize rest = 2

theorem ignored_true {rest : List Char} : Ignored true rest ↔ rest = [] := by
  simp [Ignored, byteSize_eq_zero]

theorem byteSize_separator (extended : Bool) :
    byteSize (separator extended) = if extended then 1 else 0 := by
  cases extended <;> rfl

variable {year month week day rest : List Char} {m w k : Nat}

/-- A date with hyphens takes ten bytes and fills the text, one without takes eight. -/
theorem isDateSize_iff {size : Nat} (h : size = (if extended then 10 else 8) + byteSize rest) :
    IsDateSize size ↔ Ignored extended rest := by
  subst h
  unfold IsDateSize Ignored
  cases extended <;> simp only [if_true, if_false, Bool.false_eq_true, reduceCtorEq, true_and,
    false_and, or_false] <;> omega

theorem isDateSize_month (hyear : IsNumber 4 y year) (hmonth : IsNumber 2 m month)
    (hday : IsNumber 2 k day) :
    IsDateSize (byteSize
        (year ++ (separator extended ++ (month ++ (separator extended ++ (day ++ rest)))))) ↔
      Ignored extended rest := by
  apply isDateSize_iff
  simp only [byteSize_append, byteSize_separator, hyear.byteSize, hmonth.byteSize, hday.byteSize]
  split <;> omega

theorem isDateSize_week (hyear : IsNumber 4 y year) (hweek : IsNumber 2 w week) :
    IsDateSize (byteSize (year ++ (separator extended ++ 'W' :: week))) := by
  simp only [byteSize_append, byteSize_cons, hyear.byteSize, hweek.byteSize, IsDateSize]
  cases extended <;> decide

theorem isDateSize_weekday (hyear : IsNumber 4 y year) (hweek : IsNumber 2 w week)
    (hday : IsNumber 1 k day) :
    IsDateSize (byteSize
        (year ++ (separator extended ++ 'W' :: (week ++ (separator extended ++ (day ++ rest)))))) ↔
      Ignored extended rest := by
  have hW : 'W'.utf8Size = 1 := by decide
  apply isDateSize_iff
  simp only [byteSize_append, byteSize_cons, byteSize_separator, hyear.byteSize, hweek.byteSize,
    hday.byteSize, hW]
  split <;> omega

end Calendar

namespace Date

open Calendar

/-! ## The forms of a date -/

/-- Whether a text is `YYYY-MM-DD`, with ASCII digits, and names a day. -/
def Written (d : Date) (s : String) : Prop :=
  ∃ year month day, s.toList = year ++ '-' :: (month ++ '-' :: day) ∧
    IsNumber 4 d.year year ∧ IsNumber 2 d.month month ∧ IsNumber 2 d.day day

/-- Whether a text is one of the other forms of a date, and names a day: `YYYYMMDD` with none or two
bytes behind it, `YYYY-Www` or `YYYYWww` for the Monday of a week, `YYYY-Www-D`, or `YYYYWwwD` with
none or two bytes behind it. -/
inductive WrittenOtherwise (d : Date) (s : String) : Prop
  | basic {year month day rest : List Char} (text : s.toList = year ++ (month ++ (day ++ rest)))
      (hyear : IsNumber 4 d.year year) (hmonth : IsNumber 2 d.month month)
      (hday : IsNumber 2 d.day day) (hrest : Ignored false rest)
  | week {extended : Bool} {y w : Nat} {year week : List Char}
      (text : s.toList = year ++ (separator extended ++ 'W' :: week))
      (hyear : IsNumber 4 y year) (hweek : IsNumber 2 w week) (hd : ofWeek? y w 1 = some d)
  | weekday {extended : Bool} {y w k : Nat} {year week day rest : List Char}
      (text : s.toList =
        year ++ (separator extended ++ 'W' :: (week ++ (separator extended ++ (day ++ rest)))))
      (hyear : IsNumber 4 y year) (hweek : IsNumber 2 w week) (hday : IsNumber 1 k day)
      (hrest : Ignored extended rest) (hd : ofWeek? y w k = some d)

variable {d : Date} {s : String}

theorem year_le (d : Date) : d.year ≤ 9999 := by
  have h := d.isReal
  simp only [Calendar.isReal, Bool.and_eq_true, decide_eq_true_eq] at h
  omega

/-- The texts `YYYY-MM-DD` that name a day are those in which the day is written. -/
theorem written_iff : d.Written s ↔ d.text = s := by
  have hyear := d.year_le
  have hmonth := d.month_le
  have hday := d.day_le
  have hiffs : (∀ cs, IsNumber 4 d.year cs ↔ (Text.padDecimal 4 d.year).toList = cs) ∧
      (∀ cs, IsNumber 2 d.month cs ↔ (Text.padDecimal 2 d.month).toList = cs) ∧
        ∀ cs, IsNumber 2 d.day cs ↔ (Text.padDecimal 2 d.day).toList = cs := by
    refine ⟨fun cs => Text.isNumber_iff (by decide) ?_, fun cs => Text.isNumber_iff (by decide) ?_,
      fun cs => Text.isNumber_iff (by decide) ?_⟩ <;> omega
  have htext : d.text.toList = (Text.padDecimal 4 d.year).toList ++ '-' ::
      ((Text.padDecimal 2 d.month).toList ++ '-' :: (Text.padDecimal 2 d.day).toList) := by
    simp [text, String.toList_append]
  simp only [Written, hiffs, ← String.toList_inj, htext]
  constructor
  · rintro ⟨_, _, _, hs, rfl, rfl, rfl⟩
    exact hs.symm
  · intro hs
    exact ⟨_, _, _, hs.symm, rfl, rfl, rfl⟩

/-! ## Reading a date -/

/-- A text of a size that is read is a date if a year and the rest of a date stand in it. -/
theorem ofIso?_eq_some_iff_afterYear : ofIso? s = some d ↔
    IsDateSize (byteSize s.toList) ∧
      ∃ y year rest, s.toList = year ++ rest ∧ IsNumber 4 y year ∧ afterYear? y rest = some d := by
  have heq : ofIso? s = if [7, 8, 10].contains s.utf8ByteSize then
      (number? 4 s.toList).bind fun p => afterYear? p.1 p.2 else none := rfl
  rw [heq, utf8ByteSize_eq, Option.ite_none_right_eq_some]
  simp only [Option.bind_eq_some_iff, Prod.exists, number?_eq_some, List.contains_iff_mem,
    List.mem_cons, List.not_mem_nil, or_false, IsDateSize]
  constructor
  · rintro ⟨hsize, y, rest, ⟨year, hs, hyear⟩, hrest⟩
    exact ⟨hsize, y, year, rest, hs, hyear, hrest⟩
  · rintro ⟨hsize, y, year, rest, hs, hyear, hrest⟩
    exact ⟨hsize, y, rest, ⟨year, hs, hyear⟩, hrest⟩

theorem written_or_of_ofIso? (h : ofIso? s = some d) : d.Written s ∨ d.WrittenOtherwise s := by
  rcases ofIso?_eq_some_iff_afterYear.mp h with ⟨hsize, y, year, behind, hs, hyear, hbehind⟩
  rw [hs] at hsize
  rcases afterYear?_eq_some.mp hbehind with ⟨extended, rest, ⟨rfl, hrest⟩ | ⟨rfl, hrest⟩⟩
  · rcases monthAndDay?_eq_some.mp hrest with ⟨rfl, month, day, rest, rfl, hmonth, hday⟩
    have hignored := (isDateSize_month hyear hmonth hday).mp hsize
    cases extended with
    | true =>
        rw [ignored_true.mp hignored, List.append_nil] at hs
        exact Or.inl ⟨year, month, day, hs, hyear, hmonth, hday⟩
    | false =>
        have htext : s.toList = year ++ (month ++ (day ++ rest)) := hs
        exact Or.inr (.basic htext hyear hmonth hday hignored)
  · rcases weekAndDay?_eq_some.mp hrest with
      ⟨w, week, hweek, ⟨rfl, hd⟩ | ⟨k, day, rest, rfl, hday, hd⟩⟩
    · exact Or.inr (.week hs hyear hweek hd)
    · have hignored := (isDateSize_weekday hyear hweek hday).mp hsize
      exact Or.inr (.weekday hs hyear hweek hday hignored hd)

theorem ofIso?_of_written (h : d.Written s) : ofIso? s = some d := by
  rcases h with ⟨year, month, day, hs, hyear, hmonth, hday⟩
  have htext : s.toList =
      year ++ (separator true ++ (month ++ (separator true ++ (day ++ [])))) := by
    rw [hs, List.append_nil]
    rfl
  refine ofIso?_eq_some_iff_afterYear.mpr ⟨?_, d.year, year, _, htext, hyear, ?_⟩
  · rw [htext, isDateSize_month hyear hmonth hday, ignored_true]
  · refine afterYear?_eq_some.mpr ⟨true, _, Or.inl ⟨rfl, ?_⟩⟩
    exact monthAndDay?_eq_some.mpr ⟨rfl, month, day, [], rfl, hmonth, hday⟩

theorem ofIso?_of_writtenOtherwise (h : d.WrittenOtherwise s) : ofIso? s = some d := by
  refine ofIso?_eq_some_iff_afterYear.mpr ?_
  cases h with
  | @basic year month day rest hs hyear hmonth hday hrest =>
      rw [hs]
      refine ⟨(isDateSize_month hyear hmonth hday).mpr hrest, d.year, year, _, rfl, hyear, ?_⟩
      refine afterYear?_eq_some.mpr ⟨false, _, Or.inl ⟨rfl, ?_⟩⟩
      exact monthAndDay?_eq_some.mpr ⟨rfl, month, day, rest, rfl, hmonth, hday⟩
  | @week extended y w year week hs hyear hweek hd =>
      rw [hs]
      refine ⟨isDateSize_week hyear hweek, y, year, _, rfl, hyear, ?_⟩
      refine afterYear?_eq_some.mpr ⟨extended, week, Or.inr ⟨rfl, ?_⟩⟩
      exact weekAndDay?_eq_some.mpr ⟨w, week, hweek, Or.inl ⟨rfl, hd⟩⟩
  | @weekday extended y w k year week day rest hs hyear hweek hday hrest hd =>
      rw [hs]
      refine ⟨(isDateSize_weekday hyear hweek hday).mpr hrest, y, year, _, rfl, hyear, ?_⟩
      refine afterYear?_eq_some.mpr ⟨extended, _, Or.inr ⟨rfl, ?_⟩⟩
      exact weekAndDay?_eq_some.mpr ⟨w, week, hweek, Or.inr ⟨k, day, rest, rfl, hday, hd⟩⟩

/-- A text is read as a date if it is written in one of the forms of that date. -/
theorem ofIso?_eq_some : ofIso? s = some d ↔ d.Written s ∨ d.WrittenOtherwise s := by
  constructor
  · exact written_or_of_ofIso?
  · rintro (h | h)
    · exact ofIso?_of_written h
    · exact ofIso?_of_writtenOtherwise h

-- The first week of 2020 begins in 2019.
example : (ofIso? "2020-W01").map text = some "2019-12-30" :=
  rfl

/-- A text `YYYY-MM-DD` has none of the other forms, since a hyphen and a digit stand behind its
year. -/
theorem not_writtenOtherwise (h : d.Written s) (e : Date) : ¬ e.WrittenOtherwise s := by
  rcases h with ⟨year, month, day, hs, hyear, hmonth, -⟩
  rcases hmonth.exists_cons with ⟨c, others, rfl, hc⟩
  have hhyphen : ∀ {y : Nat} {cs rest : List Char}, IsNumber 4 y cs → s.toList = cs ++ rest →
      rest.take 2 = ['-', c] := by
    intro y cs rest hcs hrest
    have heq := hrest.symm.trans hs
    rw [(List.append_inj heq (hcs.length.trans hyear.length.symm)).2]
    rfl
  have hweek : ∀ {extended : Bool} {rest : List Char},
      (separator extended ++ 'W' :: rest).take 2 ≠ ['-', c] := by
    intro extended rest hrest
    cases extended <;> cases hrest
    cases hc
  intro hother
  cases hother with
  | basic htext hyear hmonth _ _ =>
      rcases hmonth.exists_cons with ⟨b, rest, rfl, hb⟩
      obtain rfl : b = '-' := (List.cons.inj (hhyphen hyear htext)).1
      cases hb
  | week htext hyear _ _ => exact hweek (hhyphen hyear htext)
  | weekday htext hyear _ _ _ _ => exact hweek (hhyphen hyear htext)

end Date

end Costar
