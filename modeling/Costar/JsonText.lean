import Costar.Number.Numeral
import Costar.Record

/-!
# JSON text

Values are read from JSON text.  Beyond the standard, `NaN`, `Infinity` and `-Infinity` are
numbers, and of several entries under one name the last counts.  A number without fraction and
exponent is whole.  What is not JSON is refused with the position, in characters, of the first
place where it cannot go on; so is text that is nested too deep.

Main definitions: `JsonText.read` and `JsonText.Problem.message`.
-/

namespace Costar.JsonText

/-- What is wrong at a place. -/
inductive Problem where
  | expectedValue
  | expectedName
  | expectedColon
  | expectedComma
  | extraData
  | unterminated
  | controlCharacter
  | badEscape
  | badUnicodeEscape
  | byteOrderMark
deriving DecidableEq, Repr

/-- What values are nested in. -/
inductive Container where
  | array
  | object
deriving DecidableEq, Repr

/-- Why a text cannot be read. -/
inductive Failure where
  | malformed (problem : Problem) (position : Nat)
  | tooManyDigits (count : Nat)
  | tooDeep (container : Container)
deriving DecidableEq, Repr

namespace Container

/-- The name of a container. -/
def name : Container → String
  | .array => "array"
  | .object => "object"

end Container

namespace Problem

/-- The wording of a problem. -/
def message : Problem → String
  | .expectedValue => "Expecting value"
  | .expectedName => "Expecting property name enclosed in double quotes"
  | .expectedColon => "Expecting ':' delimiter"
  | .expectedComma => "Expecting ',' delimiter"
  | .extraData => "Extra data"
  | .unterminated => "Unterminated string starting at"
  | .controlCharacter => "Invalid control character at"
  | .badEscape => "Invalid \\escape"
  | .badUnicodeEscape => "Invalid \\uXXXX escape"
  | .byteOrderMark => "Unexpected UTF-8 BOM (decode using utf-8-sig)"

end Problem

/-- Line and column of a position, both counted from one. -/
def lineAndColumn (text : String) (position : Nat) : Nat × Nat :=
  let before := text.toList.take position
  (before.count '\n' + 1, (before.reverse.takeWhile (· != '\n')).length + 1)

namespace Failure

/-- The wording of a failure to read a text. -/
def message (text : String) : Failure → String
  | .malformed problem position =>
    let (line, column) := lineAndColumn text position
    problem.message ++ ": line " ++ toString line ++ " column " ++ toString column ++
      " (char " ++ toString position ++ ")"
  | .tooManyDigits count => (NumeralError.tooManyDigits count).message
  | .tooDeep container =>
    "maximum recursion depth exceeded while decoding a JSON " ++ container.name ++
      " from a unicode string"

end Failure

/-- A place in a text: its position and the characters from there on. -/
structure Cursor where
  position : Nat
  rest : List Char
deriving Repr

namespace Cursor

/-- Goes some characters further. -/
def advance (c : Cursor) (n : Nat) : Cursor :=
  ⟨c.position + n, c.rest.drop n⟩

/-- Skips blanks. -/
def skipBlanks (c : Cursor) : Cursor :=
  c.advance (c.rest.takeWhile fun x => x = ' ' || x = '\t' || x = '\n' || x = '\r').length

/-- The failure of a problem at a place. -/
def fail {α : Type} (c : Cursor) (problem : Problem) : Except Failure α :=
  .error (.malformed problem c.position)

end Cursor

/-! ## Strings -/

/-- The code unit that four hexadecimal digits stand for. -/
def codeUnit? (cs : List Char) : Option Nat :=
  match (cs.take 4).mapM Text.hexDigit? with
  | some ds => if ds.length = 4 then some (Text.ofHexDigits ds) else none
  | none => none

/-- Whether a code unit is the first of a pair. -/
def isHighSurrogate (n : Nat) : Bool :=
  0xD800 ≤ n && n ≤ 0xDBFF

/-- Whether a code unit is the second of a pair. -/
def isLowSurrogate (n : Nat) : Bool :=
  0xDC00 ≤ n && n ≤ 0xDFFF

/-- The letter of a code unit.  Half of a pair that stands alone is kept as such. -/
def letterOfUnit (n : Nat) : Letter :=
  if h : 0xD800 ≤ n ∧ n ≤ 0xDFFF then .half ⟨n, h.1, h.2⟩ else .char (Char.ofNat n)

/-- The character of a pair of code units. -/
def charOfPair (high low : Nat) : Char :=
  Char.ofNat (0x10000 + (high - 0xD800) * 0x400 + (low - 0xDC00))

/-- Reads the hexadecimal digits of an escape, the letter `u` standing at `position`.  Two escapes
that form a pair give one character.  The result is the letter of the text with the number of
characters that were read after the `u`. -/
def unicodeEscape (position : Nat) (cs : List Char) : Except Failure (Letter × Nat) :=
  match codeUnit? cs, cs.drop 4 with
  | some unit, after@(_ :: _) =>
    match after with
    | '\\' :: 'u' :: more =>
      if isHighSurrogate unit && 4 < more.length then
        match codeUnit? more with
        | some low =>
          if isLowSurrogate low then .ok (.char (charOfPair unit low), 10)
          else .ok (letterOfUnit unit, 4)
        | none => .error (.malformed .badUnicodeEscape (position + 6))
      else
        .ok (letterOfUnit unit, 4)
    | _ => .ok (letterOfUnit unit, 4)
  | _, _ => .error (.malformed .badUnicodeEscape position)

/-- The character of an escape by a single letter. -/
def letterEscape? : Char → Option Char
  | '"' => some '"'
  | '\\' => some '\\'
  | '/' => some '/'
  | 'b' => some '\x08'
  | 'f' => some '\x0C'
  | 'n' => some '\n'
  | 'r' => some '\r'
  | 't' => some '\t'
  | _ => none

/-- Reads the letters of a string up to and with its closing quote.  The opening quote stands at
`start`. -/
def stringLetters (start position : Nat) (cs : List Char) :
    Except Failure (List Letter × Cursor) :=
  match cs with
  | [] => .error (.malformed .unterminated start)
  | '"' :: rest => .ok ([], ⟨position + 1, rest⟩)
  | ['\\'] => .error (.malformed .unterminated start)
  | '\\' :: 'u' :: rest => do
    let (l, n) ← unicodeEscape (position + 1) rest
    let (more, cursor) ← stringLetters start (position + 2 + n) (rest.drop n)
    pure (l :: more, cursor)
  | '\\' :: e :: rest =>
    match letterEscape? e with
    | none => .error (.malformed .badEscape position)
    | some c => do
      let (more, cursor) ← stringLetters start (position + 2) rest
      pure (.char c :: more, cursor)
  | c :: rest =>
    if c.toNat < 0x20 then .error (.malformed .controlCharacter position)
    else do
      let (more, cursor) ← stringLetters start (position + 1) rest
      pure (.char c :: more, cursor)
termination_by cs.length
decreasing_by
  all_goals simp only [List.length_cons, List.length_drop]
  all_goals omega

/-- Reads a string after its opening quote. -/
def string (c : Cursor) : Except Failure (Text × Cursor) := do
  let (ls, cursor) ← stringLetters (c.position - 1) c.position c.rest
  pure (.ofLetters ls, cursor)

/-! ## Numbers -/

/-- Whether a character is a digit of a number. -/
def isDigit (c : Char) : Bool :=
  '0' ≤ c && c ≤ '9'

/-- The whole part of a number: a zero, or digits that do not begin with one. -/
def wholePart (cs : List Char) : List Char :=
  match cs with
  | '0' :: _ => ['0']
  | cs => cs.takeWhile isDigit

/-- The digits of the fraction of a number; none if there is no fraction. -/
def fractionDigits (cs : List Char) : List Char :=
  match cs with
  | '.' :: rest => rest.takeWhile isDigit
  | _ => []

/-- The exponent of a number, with the number of characters it takes; nothing if there is no
complete exponent. -/
def exponentPart (cs : List Char) : Option (Int × Nat) :=
  match cs with
  | e :: rest =>
    if e = 'e' ∨ e = 'E' then
      let (negative, body) := Numeral.sign rest
      let digits := body.takeWhile isDigit
      if digits.isEmpty then none
      else
        some (Numeral.signed negative (Text.ofDigits (digits.filterMap Text.asciiDigit?)),
          1 + (rest.length - body.length) + digits.length)
    else none
  | [] => none

/-- Reads a number. -/
def number (c : Cursor) : Except Failure (Value × Cursor) :=
  let (negative, body) :=
    match c.rest with
    | '-' :: rest => (true, rest)
    | rest => (false, rest)
  let whole := wholePart body
  if whole.isEmpty then c.fail .expectedValue
  else
    let afterWhole := body.drop whole.length
    let fraction := fractionDigits afterWhole
    let fractionSize := if fraction.isEmpty then 0 else fraction.length + 1
    let exponent := exponentPart (afterWhole.drop fractionSize)
    let size := (if negative then 1 else 0) + whole.length + fractionSize +
      (exponent.map (·.2)).getD 0
    let digits := (whole ++ fraction).filterMap Text.asciiDigit?
    if fraction.isEmpty && exponent.isNone then
      if Numeral.digitLimit < whole.length then .error (.tooManyDigits whole.length)
      else .ok (.int (Numeral.signed negative (Text.ofDigits digits)), c.advance size)
    else
      let power : Int := (exponent.map (·.1)).getD 0 - fraction.length
      .ok (.float (.ofDecimal negative (Text.ofDigits digits) power), c.advance size)

/-! ## Values -/

/-- The words that stand for values. -/
def words : List (String × Value) :=
  [("null", .null), ("true", .bool true), ("false", .bool false), ("NaN", .float .nan),
    ("Infinity", .float (.infinity false)), ("-Infinity", .float (.infinity true))]

/-- Reads a word or a number. -/
def wordOrNumber (c : Cursor) : Except Failure (Value × Cursor) :=
  match words.find? fun w => w.1.toList.isPrefixOf c.rest with
  | some (word, v) => .ok (v, c.advance word.length)
  | none => number c

/-- The number of containers that may stand inside each other. -/
def nestingLimit : Nat := 970

mutual

/-- Reads a value that `room` containers may nest in; `fuel` bounds the nesting and the number of
items. -/
def value (fuel room : Nat) (c : Cursor) : Except Failure (Value × Cursor) :=
  match fuel with
  | 0 => c.fail .expectedValue
  | fuel + 1 =>
    match c.rest, room with
    | '"' :: _, _ => do
      let (s, after) ← string (c.advance 1)
      pure (.text s, after)
    | '\x7b' :: _, 0 => .error (.tooDeep .object)
    | '\x7b' :: _, room + 1 =>
      let start := (c.advance 1).skipBlanks
      if start.rest.head? = some '\x7d' then .ok (.map [], start.advance 1)
      else members fuel room [] start
    | '[' :: _, 0 => .error (.tooDeep .array)
    | '[' :: _, room + 1 =>
      let start := (c.advance 1).skipBlanks
      if start.rest.head? = some ']' then .ok (.list [], start.advance 1)
      else items fuel room [] start
    | _, _ => wordOrNumber c

/-- Reads the entries of an object up to and with its closing brace. -/
def members (fuel room : Nat) (read : Record) (c : Cursor) : Except Failure (Value × Cursor) :=
  match fuel with
  | 0 => c.fail .expectedName
  | fuel + 1 =>
    if c.rest.head? = some '"' then do
      let (name, afterName) ← string (c.advance 1)
      let colon := afterName.skipBlanks
      if colon.rest.head? = some ':' then do
        let (v, afterValue) ← value fuel room (colon.advance 1).skipBlanks
        let next := afterValue.skipBlanks
        let read := read.put name v
        match next.rest.head? with
        | some '\x7d' => pure (.map read, next.advance 1)
        | some ',' => members fuel room read (next.advance 1).skipBlanks
        | _ => next.fail .expectedComma
      else
        colon.fail .expectedColon
    else
      c.fail .expectedName

/-- Reads the items of a list up to and with its closing bracket. -/
def items (fuel room : Nat) (read : List Value) (c : Cursor) : Except Failure (Value × Cursor) :=
  match fuel with
  | 0 => c.fail .expectedValue
  | fuel + 1 => do
    let (v, afterValue) ← value fuel room c
    let next := afterValue.skipBlanks
    let read := read ++ [v]
    match next.rest.head? with
    | some ']' => pure (.list read, next.advance 1)
    | some ',' => items fuel room read (next.advance 1).skipBlanks
    | _ => next.fail .expectedComma

end

/-- Reads a text that holds one value. -/
def read (text : String) : Except Failure Value := do
  if text.toList.head? = some '\uFEFF' then
    .error (.malformed .byteOrderMark 0)
  else
    let start : Cursor := ⟨0, text.toList⟩
    let (v, after) ← value (2 * text.length + 2) nestingLimit start.skipBlanks
    let last := after.skipBlanks
    if last.rest.isEmpty then pure v else last.fail .extraData

end Costar.JsonText
