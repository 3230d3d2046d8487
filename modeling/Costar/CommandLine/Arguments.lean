import Costar.Number.Numeral
import Costar.Value

/-!
# Arguments of the command line

The command takes the ids of two people, and filters after `--filters`.  An option may be
shortened as long as it stays recognisable, and `--` ends the options.  What looks like a
negative number, or holds a blank, is no option.

Main definition: `Arguments.parse`.
-/

namespace Costar.CommandLine

/-- The options of the command. -/
inductive Flag where
  | filters
  | help
deriving DecidableEq, Repr

namespace Flag

/-- The names of the options. -/
def names : List (String × Flag) :=
  [("-h", .help), ("--help", .help), ("--filters", .filters)]

end Flag

/-- What is written together with an option: nothing, a text after an equals sign, or more
letters after a single one. -/
inductive Attachment where
  | none
  | value (text : String)
  | letters (text : String)
deriving DecidableEq, Repr

/-- What an argument is: a plain one, the end of the options, an option with what is written
together with it, or an option that there is not. -/
inductive Token where
  | plain (text : String)
  | separator
  | option (flag : Flag) (attached : Attachment)
  | unknown
deriving DecidableEq, Repr

namespace Token

/-- Whether a text is written like a negative number. -/
def isNegativeNumber (text : String) : Bool :=
  let isDigit (c : Char) : Bool := (Text.digitValue? c).isSome
  let cs := text.toList
  let cs := if cs.getLast? = some '\n' then cs.dropLast else cs
  match cs with
  | '-' :: body =>
    let whole := body.takeWhile isDigit
    match body.drop whole.length with
    | [] => !whole.isEmpty
    | '.' :: fraction => !fraction.isEmpty && fraction.all isDigit
    | _ => false
  | _ => false

/-- Splits a text at its first equals sign. -/
def splitEquals (text : String) : String × Attachment :=
  let cs := text.toList
  let name := cs.takeWhile (· != '=')
  match cs.drop name.length with
  | _ :: attached => (String.ofList name, .value (String.ofList attached))
  | [] => (text, .none)

/-- The options that a text may be short for. -/
def candidates (text : String) : List Token :=
  let cs := text.toList
  if "--".toList.isPrefixOf cs then
    let (name, attached) := splitEquals text
    (Flag.names.filter fun f => name.toList.isPrefixOf f.1.toList).map fun f =>
      .option f.2 attached
  else
    Flag.names.filterMap fun f =>
      if f.1.toList = cs.take 2 then some (.option f.2 (.letters (String.ofList (cs.drop 2))))
      else if cs.isPrefixOf f.1.toList then some (.option f.2 .none)
      else none

/-- What an argument before the end of the options is; nothing if it is short for several
options. -/
def ofText? (text : String) : Option Token :=
  let (name, attached) := splitEquals text
  if text.toList.head? != some '-' || text.length == 1 then some (.plain text)
  else
    match Flag.names.lookup text, Flag.names.lookup name with
    | some f, _ => some (.option f .none)
    | none, some f => some (.option f attached)
    | none, none =>
      match candidates text with
      | [t] => some t
      | _ :: _ :: _ => none
      | [] =>
        if isNegativeNumber text || text.toList.contains ' ' then some (.plain text)
        else some .unknown

/-- What the arguments are.  All after the first `--` are plain. -/
def ofTexts? : List String → Option (List Token)
  | [] => some []
  | text :: rest =>
    if text = "--" then some (.separator :: rest.map .plain)
    else
      match ofText? text, ofTexts? rest with
      | some t, some ts => some (t :: ts)
      | _, _ => none

/-- Whether a token is an option. -/
def isOption : Token → Bool
  | .option .. | .unknown => true
  | _ => false

end Token

/-- The arguments of a search. -/
structure Arguments where
  first : Value
  second : Value
  filters : Option String
deriving Repr

/-- What the arguments ask for: a search, help, or nothing that there is. -/
inductive Intent where
  | search (arguments : Arguments)
  | help
  | misuse
deriving Repr

namespace Arguments

/-- The arguments read so far. -/
structure Progress where
  ids : List Value := []
  filters : Option String := none
  extras : Bool := false

/-- The next plain argument, with the end of the options around it. -/
def takePlain? (ts : List Token) : Option (List String × List Token) :=
  let isSeparator (t : Token) : Bool := t == .separator
  let before := ts.takeWhile isSeparator
  match ts.drop before.length with
  | .plain text :: rest =>
    let after := rest.takeWhile isSeparator
    some (before.map (fun _ => "--") ++ text :: after.map (fun _ => "--"), rest.drop after.length)
  | _ => none

/-- The id that plain arguments give.  One `--` among them does not count; if nothing is left the
id is an empty list. -/
def idOf? (texts : List String) : Option Value :=
  match texts.erase "--" with
  | [] => some (.list [])
  | [text] =>
    match Numeral.int text with
    | .ok n => some (.int n)
    | .error _ => none
  | _ => none

/-- Reads as many ids as are still missing and can be read here; nothing if one is no number. -/
def takeIds (missing : Nat) (p : Progress) (ts : List Token) : Option (Progress × List Token) :=
  match missing with
  | 0 => some (p, ts)
  | missing + 1 =>
    match takePlain? ts with
    | none => some (p, ts)
    | some (texts, rest) =>
      match idOf? texts with
      | none => none
      | some id => takeIds missing { p with ids := p.ids ++ [id] } rest

/-- Whether the letters after the option for help leave it a request for help: the first one that
does not ask for help again is neither an equals sign nor a dash. -/
def leavesHelp (letters : List Char) : Bool :=
  match letters.dropWhile (· == 'h') with
  | [] => true
  | c :: _ => c != '=' && c != '-'

/-- What the option for help asks for. -/
def helpWith : Attachment → Intent
  | .none => .help
  | .value _ => .misuse
  | .letters letters => if leavesHelp letters.toList then .help else .misuse

/-- The intent of arguments that have all been read. -/
def conclude (p : Progress) : Intent :=
  match p.extras, p.ids with
  | false, [first, second] => .search ⟨first, second, p.filters⟩
  | _, _ => .misuse

/-- Reads the tokens; `fuel` bounds their number. -/
def readTokens (fuel : Nat) (p : Progress) (ts : List Token) : Intent :=
  match fuel with
  | 0 => .misuse
  | fuel + 1 =>
    match ts with
    | .unknown :: rest => readTokens fuel { p with extras := true } rest
    | .option .help attached :: _ => helpWith attached
    | .option .filters .none :: .plain text :: rest =>
      readTokens fuel { p with filters := some text } rest
    | .option .filters .none :: _ => .misuse
    | .option .filters (.value text) :: rest | .option .filters (.letters text) :: rest =>
      readTokens fuel { p with filters := some text } rest
    | ts =>
      match takeIds (2 - p.ids.length) p ts with
      | none => .misuse
      | some (q, rest) =>
        let skipped := rest.dropWhile (!·.isOption)
        let q := { q with extras := q.extras || skipped.length < rest.length }
        if skipped.isEmpty then conclude q else readTokens fuel q skipped

/-- Reads the arguments. -/
def parse (texts : List String) : Intent :=
  match Token.ofTexts? texts with
  | none => .misuse
  | some ts => readTokens (ts.length + 2) {} ts

end Arguments

end Costar.CommandLine
