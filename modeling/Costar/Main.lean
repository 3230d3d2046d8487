import Costar.CommandLine.Program

/-!
# Main

The command line.  No graph store is linked in, so the store that it turns to refuses every
query; whatever needs none, such as the check of arguments and filters, is done as ever.
-/

namespace Costar

/-- A store that refuses every query. -/
def offlineStore : Database :=
  let fault : Fault := ⟨.unavailable, "no graph store is connected"⟩
  ⟨fun _ => .refused fault, fun _ => .refused fault, some fault⟩

namespace CommandLine

/-- The exit code of an ending, and what is said about it where nobody reads the output. -/
def Ending.report : Ending → Nat × Option String
  | .exit code => (code, none)
  | .unreadableFilters text failure => (1, some (failure.message text))
  | .brokenOff failure => (1, some failure.message.shown)

end CommandLine

end Costar

open Costar in
/-- Runs the command on the arguments, under the settings that the environment gives. -/
def main (texts : List String) : IO UInt32 := do
  let environment ← Settings.variableNames.filterMapM fun name => do
    pure ((← IO.getEnv name).map fun text => (name, text))
  match Settings.load (fun name => environment.lookup name) with
  | .error e =>
    IO.eprintln e.message
    pure 1
  | .ok settings =>
    let outcome := CommandLine.run settings offlineStore .inOrder texts
    IO.print outcome.output.shown
    let (code, complaint) := outcome.ending.report
    match complaint with
    | some text => IO.eprintln text
    | none => pure ()
    pure code.toUInt32
