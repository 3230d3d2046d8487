/-!
# Texts

Some characters are written as a pair of code units, from 0xD800 to 0xDFFF.  Half of a pair that
stands alone is no character, but text that was read from escapes can hold it.  So a text is made
of letters, which are characters and such halves.  Where there are no halves it is a string, and
only then can it be sent.

Main definitions: `Text`, `Text.letters` and `Text.ofLetters`.  Main statements:
`Text.letters_ofLetters` and `Text.letters_injective`, texts and lists of letters are the same, and
`Text.isWhole_append`.
-/

namespace Costar

/-- A code unit that is half of a pair. -/
structure Half where
  unit : Nat
  low : 0xD800 ≤ unit
  high : unit ≤ 0xDFFF
deriving DecidableEq, Repr

/-- A letter of a text: a character, or half of a pair that stands alone. -/
inductive Letter where
  | char (c : Char)
  | half (h : Half)
deriving DecidableEq, Repr

namespace Letter

/-- Whether a letter is half of a pair. -/
def isHalf : Letter → Bool
  | .char _ => false
  | .half _ => true

/-- The character that a letter is, if it is one. -/
def char? : Letter → Option Char
  | .char c => some c
  | .half _ => none

/-- The number of a letter in the order of letters. -/
def code : Letter → Nat
  | .char c => c.toNat
  | .half h => h.unit

end Letter

/-- Letters among which there is half of a pair. -/
structure Broken where
  letters : List Letter
  holdsHalf : letters.any Letter.isHalf = true
deriving DecidableEq, Repr

/-- A text: a string, or letters among which there is half of a pair. -/
inductive Text where
  | whole (s : String)
  | broken (b : Broken)
deriving DecidableEq, Repr

instance : Coe String Text := ⟨.whole⟩

namespace Text

/-- The letters of a text. -/
def letters : Text → List Letter
  | .whole s => s.toList.map .char
  | .broken b => b.letters

/-- The text of letters. -/
def ofLetters (ls : List Letter) : Text :=
  if h : ls.any Letter.isHalf = true then .broken ⟨ls, h⟩
  else .whole (String.ofList (ls.filterMap Letter.char?))

/-- Whether no half of a pair stands alone in a text; only such a text can be sent. -/
def isWhole : Text → Bool
  | .whole _ => true
  | .broken _ => false

/-- The string that a text is, if it is whole. -/
def string? : Text → Option String
  | .whole s => some s
  | .broken _ => none

/-- Whether a text has no letters. -/
def isEmpty : Text → Bool
  | .whole s => s.isEmpty
  | .broken _ => false

/-- Whether one text comes before another, or is the same. -/
def le (s t : Text) : Bool :=
  !((t.letters.map Letter.code).lex (s.letters.map Letter.code) (· < ·))

/-- One text after another. -/
def append : Text → Text → Text
  | .whole s, .whole t => .whole (s ++ t)
  | s, t => ofLetters (s.letters ++ t.letters)

instance : Append Text := ⟨append⟩

/-- Several texts, one after another. -/
def join (ts : List Text) : Text :=
  ts.foldl (· ++ ·) ""

theorem isHalf_eq_false {l : Letter} : l.isHalf = false ↔ ∃ c, l = .char c := by
  cases l <;> simp [Letter.isHalf]

theorem any_isHalf_letters (t : Text) : t.letters.any Letter.isHalf = !t.isWhole := by
  cases t with
  | whole s => simp [letters, isWhole, Letter.isHalf]
  | broken b => exact b.holdsHalf

/-- Letters without halves are those of a string. -/
theorem map_char_filterMap {ls : List Letter} (h : ls.any Letter.isHalf = false) :
    (ls.filterMap Letter.char?).map Letter.char = ls := by
  induction ls with
  | nil => rfl
  | cons l rest ih =>
    rw [List.any_cons, Bool.or_eq_false_iff] at h
    rcases isHalf_eq_false.mp h.1 with ⟨c, rfl⟩
    exact congrArg (Letter.char c :: ·) (ih h.2)

@[simp]
theorem letters_ofLetters (ls : List Letter) : (ofLetters ls).letters = ls := by
  unfold ofLetters
  split
  · rfl
  · next h =>
    rw [letters, String.toList_ofList]
    exact map_char_filterMap (Bool.eq_false_iff.mpr h)

theorem letters_injective {s t : Text} (h : s.letters = t.letters) : s = t := by
  have hwhole : s.isWhole = t.isWhole := by
    have hany := congrArg (·.any Letter.isHalf) h
    simpa [any_isHalf_letters] using hany
  cases s with
  | whole s =>
    cases t with
    | whole t =>
      have hchars : s.toList = t.toList :=
        (List.map_inj_right fun _ _ hc => Letter.char.inj hc).mp h
      rw [String.toList_injective hchars]
    | broken t => cases hwhole
  | broken s =>
    cases t with
    | whole t => cases hwhole
    | broken t =>
      cases s
      cases t
      cases h
      rfl

@[simp]
theorem letters_append (s t : Text) : (s ++ t).letters = s.letters ++ t.letters := by
  change (append s t).letters = _
  unfold append
  split
  · simp [letters]
  · exact letters_ofLetters _

@[simp]
theorem empty_append (t : Text) : .whole "" ++ t = t := by
  apply letters_injective
  rw [letters_append]
  rfl

/-- A text is whole exactly when both its parts are. -/
theorem isWhole_append (s t : Text) : (s ++ t).isWhole = (s.isWhole && t.isWhole) := by
  have hany := any_isHalf_letters (s ++ t)
  rw [letters_append, List.any_append, any_isHalf_letters, any_isHalf_letters] at hany
  rw [← Bool.not_inj_iff, ← hany, Bool.not_and]

end Text

end Costar
