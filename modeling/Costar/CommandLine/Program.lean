import Costar.CommandLine.Arguments
import Costar.JsonText
import Costar.Search
import Costar.Settings

/-!
# The command

The command finds a connection and writes one numbered line for each step of it.  It ends with
0 if the search came to an end, also where there is no connection, with 1 if it failed for a
reason that is reported, and with 2 if the arguments make no sense.  Filters that are not JSON
end it before the store is turned to.

Main definition: `run`.
-/

namespace Costar.CommandLine

/-- How the command ends: with a code, or broken off. -/
inductive Ending where
  | exit (code : Nat)
  | unreadableFilters (text : String) (failure : JsonText.Failure)
  | brokenOff (failure : Failure)
deriving Repr

/-- What the command has done: how it ended, what it wrote, what the store saw, and whether it
turned to the store at all. -/
structure Outcome where
  ending : Ending
  output : Text := ""
  events : List Event := []
  connected : Bool := false
deriving Repr

/-- What is written as help. -/
def help : String :=
  "usage: costar [-h] [--filters FILTERS] first second\n\n" ++
    "Finds the shortest connection between two people.\n\n" ++
    "  first              id of the person to start from\n" ++
    "  second             id of the person to reach\n" ++
    "  -h, --help         show this text\n" ++
    "  --filters FILTERS  filters as JSON\n"

/-- The filters of a search.  An empty text is no filter. -/
def filtersOf : Option String → Except JsonText.Failure Value
  | none => .ok .null
  | some text => if text.isEmpty then .ok .null else JsonText.read text

/-- The lines of steps, numbered from `number` on, up to the first step that has none, and the
failure that kept it from one. -/
def numberedLines (number : Nat) : List Step → List Text × Option Failure
  | [] => ([], none)
  | s :: steps =>
    match s.line number with
    | .error f => ([], some f)
    | .ok line =>
      let (lines, failure) := numberedLines (number + 1) steps
      (line :: lines, failure)

/-- How the command ends after a failure: one that is reported is written out. -/
def afterFailure (f : Failure) : Ending × Text :=
  match f.reportedAs? with
  | some _ => (.exit 1, "Error: " ++ f.message ++ "\n")
  | none => (.brokenOff f, "")

/-- How the command ends with the connection that it found, and what it writes. -/
def afterConnection (c : Connection) : Ending × Text :=
  match c.steps with
  | [] => (.exit 0, "No connection found.\n")
  | steps =>
    let (lines, failure) := numberedLines 1 steps
    ((failure.map Ending.brokenOff).getD (.exit 0), Text.join (lines.map (· ++ "\n")))

/-- How the command ends with the result of the search, and what it writes. -/
def conclude : Except Failure Connection → Ending × Text
  | .error f => afterFailure f
  | .ok c => afterConnection c

/-- Searches the store for a connection. -/
def runSearch (settings : Settings) (db : Database) (timing : Timing) (a : Arguments)
    (filters : Value) : Outcome :=
  let search : Search := ⟨db, settings.access, Search.defaultConcurrency, timing⟩
  let found := search.find a.first a.second (.given filters)
  let (ending, output) := conclude found.result
  { ending, output, events := found.events, connected := true }

/-- Runs the command. -/
def run (settings : Settings) (db : Database) (timing : Timing) (texts : List String) : Outcome :=
  match Arguments.parse texts with
  | .help => { ending := .exit 0, output := help }
  | .misuse => { ending := .exit 2 }
  | .search a =>
    match filtersOf a.filters with
    | .error failure => { ending := .unreadableFilters (a.filters.getD "") failure }
    | .ok filters => runSearch settings db timing a filters

end Costar.CommandLine
