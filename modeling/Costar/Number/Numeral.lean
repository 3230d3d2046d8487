import Costar.Number.Binary64
import Costar.Text.Blank
import Costar.Text.Digit
import Costar.Text.Quoted

/-!
# Numerals

Whole and decimal numbers read from text.  Blanks around a numeral are skipped, its digits
may be of any script, and a single underscore may stand between two digits.
-/

namespace Costar

/-- Why a text is not a numeral. -/
inductive NumeralError where
  | notInteger (text : String)
  | notDecimal (text : String)
  | tooManyDigits (count : Nat)
deriving DecidableEq, Repr

namespace NumeralError

/-- The text of the problem. -/
def message : NumeralError → String
  | .notInteger text =>
    "invalid literal for int() with base 10: " ++ String.ofList ((Text.quoted text).toList.take 200)
  | .notDecimal text => "could not convert string to float: " ++ Text.quoted text
  | .tooManyDigits count =>
    "Exceeds the limit (4300 digits) for integer string conversion: value has " ++ toString count ++
      " digits; use sys.set_int_max_str_digits() to increase the limit"

end NumeralError

namespace Numeral

/-- The largest number of digits that a whole number is read from.  Numbers are written in full: one
that comes from text has no more digits than this, and one from the graph store has far fewer. -/
def digitLimit : Nat := 4300

/-- The blanks that may stand around a numeral: all but the information separators. -/
def isBlank (c : Char) : Bool :=
  Text.isBlank c && !(0x1C ≤ c.toNat && c.toNat ≤ 0x1F)

/-- Reads the digits that follow a digit, each with at most one underscore before it. -/
def moreDigits : List Char → List Nat × List Char
  | '_' :: c :: cs =>
    match Text.digitValue? c with
    | some d => (d :: (moreDigits cs).1, (moreDigits cs).2)
    | none => ([], '_' :: c :: cs)
  | c :: cs =>
    match Text.digitValue? c with
    | some d => (d :: (moreDigits cs).1, (moreDigits cs).2)
    | none => ([], c :: cs)
  | [] => ([], [])

/-- Reads a run of digits, single underscores between them being skipped. -/
def digits : List Char → List Nat × List Char
  | c :: cs =>
    match Text.digitValue? c with
    | some d => (d :: (moreDigits cs).1, (moreDigits cs).2)
    | none => ([], c :: cs)
  | [] => ([], [])

/-- Reads an optional sign; `true` stands for minus. -/
def sign : List Char → Bool × List Char
  | '-' :: cs => (true, cs)
  | '+' :: cs => (false, cs)
  | cs => (false, cs)

/-- A whole number with a sign. -/
def signed (negative : Bool) (n : Nat) : Int :=
  if negative then -(n : Int) else n

/-- Reads a whole number. -/
def int (text : String) : Except NumeralError Int :=
  let (negative, body) := sign (Text.trimBy isBlank text.toList)
  let (ds, rest) := digits body
  if ds.isEmpty || rest.head? == some '_' then .error (.notInteger text)
  else if digitLimit < ds.length then .error (.tooManyDigits ds.length)
  else if rest.isEmpty then .ok (signed negative (Text.ofDigits ds))
  else .error (.notInteger text)

/-- Reads the exponent part of a decimal number, which may be missing. -/
def exponent? : List Char → Option (Int × List Char)
  | [] => some (0, [])
  | c :: cs =>
    if c = 'e' ∨ c = 'E' then
      let (negative, body) := sign cs
      let (ds, rest) := digits body
      if ds.isEmpty then none else some (signed negative (Text.ofDigits ds), rest)
    else none

/-- Reads the digits after the point of a decimal number, which may be missing. -/
def fractionPart : List Char → List Nat × List Char
  | '.' :: cs => digits cs
  | cs => ([], cs)

/-- Reads a decimal number without sign, written out to the end of the text. -/
def unsignedDecimal? (negative : Bool) (cs : List Char) : Option Binary64 :=
  let (whole, afterWhole) := digits cs
  let (fraction, afterFraction) := fractionPart afterWhole
  if whole.isEmpty && fraction.isEmpty then none
  else
    match exponent? afterFraction with
    | some (e, []) =>
      some (.ofDecimal negative (Text.ofDigits (whole ++ fraction)) (e - fraction.length))
    | _ => none

/-- Reads a decimal number, an infinity or NaN. -/
def decimal (text : String) : Except NumeralError Binary64 :=
  let (negative, body) := sign (Text.trimBy isBlank text.toList)
  let word := String.ofList (body.map Char.toLower)
  if word == "inf" || word == "infinity" then .ok (.infinity negative)
  else if word == "nan" then .ok .nan
  else
    match unsignedDecimal? negative body with
    | some x => .ok x
    | none => .error (.notDecimal text)

end Numeral

end Costar
