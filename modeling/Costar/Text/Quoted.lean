import Costar.Text
import Costar.Text.Digit
import Costar.Text.Printable

/-!
# Quoted text

A text in quotes stands in single quotes, unless it holds a single quote and no double one.
The quote itself, the backslash, line feed, carriage return and tab are written with a backslash;
every other character that is not printable is written by its code point in hexadecimal, and so is
half of a pair.
-/

namespace Costar.Text

/-- The quote that letters are put in. -/
def quoteFor (ls : List Letter) : Char :=
  if ls.contains (.char '\'') && !ls.contains (.char '"') then '"' else '\''

/-- The escapes that have a letter of their own. -/
def letterEscape? : Char → Option Char
  | '\\' => some '\\'
  | '\n' => some 'n'
  | '\r' => some 'r'
  | '\t' => some 't'
  | _ => none

/-- The escape that gives a letter by its code in hexadecimal. -/
def codeEscape (code : Nat) : List Char :=
  if code < 0x100 then '\\' :: 'x' :: toHex 2 code
  else if code < 0x10000 then '\\' :: 'u' :: toHex 4 code
  else '\\' :: 'U' :: toHex 8 code

/-- A letter as it is written between quotes. -/
def quoteLetter (quote : Char) : Letter → List Char
  | .half h => codeEscape h.unit
  | .char c =>
    if c = quote then ['\\', quote]
    else
      match letterEscape? c with
      | some e => ['\\', e]
      | none => if isPrintable c then [c] else codeEscape c.toNat

/-- A text in quotes. -/
def quoted (t : Text) : String :=
  let quote := quoteFor t.letters
  String.ofList (quote :: t.letters.flatMap (quoteLetter quote) ++ [quote])

/-- A string of bytes in quotes, every byte outside printable ASCII in hexadecimal. -/
def quotedBytes (bytes : List UInt8) : String :=
  let cs := bytes.map fun b => Char.ofNat b.toNat
  let quote := quoteFor (cs.map .char)
  let body := cs.flatMap fun c =>
    if c.toNat < 0x7F then quoteLetter quote (.char c) else '\\' :: 'x' :: toHex 2 c.toNat
  String.ofList ('b' :: quote :: body ++ [quote])

/-- A letter as it is shown where only characters can be: half of a pair as an escape. -/
def showLetter : Letter → List Char
  | .half h => codeEscape h.unit
  | .char c => [c]

/-- A text as it is shown where only characters can be. -/
def shown (t : Text) : String :=
  String.ofList (t.letters.flatMap showLetter)

end Costar.Text
