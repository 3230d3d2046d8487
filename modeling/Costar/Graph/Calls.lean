import Costar.Graph.Queries

/-!
# Calls

A sequence of calls, each of which asks one of the three queries in a session of its own.  The
calls are made one after another, step by step, each against a store that may reply to it in any
way.  The rows of a reply are read, or the fault in their way is raised as a failure, only when the
call has left its session.

Main definitions: `Call` and `Calls.State.step`.
-/

namespace Costar

/-- A call of one of the three queries. -/
inductive Call where
  | findPath (request : PathRequest)
  | lookUpShow (key : Value)
  | suggestNames (name : Text) (limit : Int)

/-- What comes of a call that succeeds. -/
inductive Answer where
  | path (path : Option Path)
  | record (properties : Option Record)
  | people (records : List Record)

namespace Call

/-- What a row of the reply to a call holds. -/
def Column : Call → Type
  | .findPath _ => PathColumn
  | .lookUpShow _ => EntityColumn
  | .suggestNames .. => EntityColumn

/-- The exchange of a call with a store. -/
def exchange (access : Access) (db : Database) : (c : Call) → Exchange c.Column
  | .findPath request => access.traversal db request
  | .lookUpShow key => access.showLookup db key
  | .suggestNames name limit => access.nameSuggestion db name limit

/-- The failure as which a call reports a fault of the store. -/
def reported : Call → Fault → Failure
  | .findPath _ => .traversalFailed
  | .lookUpShow key => .lookupFailed key
  | .suggestNames name _ => .lookupFailed (.text name)

/-- What the rows of the reply to a call are read as. -/
def convert : (c : Call) → List c.Column → Except Failure Answer
  | .findPath _, rows => (Access.pathOf rows).map .path
  | .lookUpShow _, rows => (Access.showOf rows).map .record
  | .suggestNames .., rows => (Access.peopleOf rows).map .people

/-- What comes of a call that has left its session with rows or with a fault. -/
def conclude (c : Call) : Except Fault (List c.Column) → Except Failure Answer
  | .ok rows => c.convert rows
  | .error fault => .error (fault.raised c.reported)

/-- The run of a call by itself. -/
def run (access : Access) (db : Database) : Call → Run Answer
  | .findPath request => .path <$> access.findPath db request
  | .lookUpShow key => .record <$> access.lookUpShow db key
  | .suggestNames name limit => .people <$> access.suggestNames db name limit

end Call

namespace Calls

/-- A call, with the store as it is when the call is made. -/
structure Job where
  call : Call
  database : Database

namespace Job

/-- The exchange of a call with its store. -/
def exchange (access : Access) (job : Job) : Exchange job.call.Column :=
  job.call.exchange access job.database

/-- The reply to the query of a call. -/
def reply (access : Access) (job : Job) : Reply job.call.Column :=
  (job.exchange access).reply

end Job

/-- How far the calls have come: none is being made, or the exchange of one is at a stage. -/
inductive Stage where
  | idle
  | within (job : Job) (stage : Exchange.Stage job.call.Column)

/-- A sequence of calls at a moment: those that have not been made, how far the present one has
come, what the store has seen, and what has come of those that have been made. -/
structure State where
  waiting : List Job
  stage : Stage := .idle
  events : List Event := []
  results : List (Except Failure Answer) := []

namespace State

/-- A call that is being made goes one step further in its exchange. -/
def advance (access : Access) (s : State) (job : Job) (stage : Exchange.Stage job.call.Column) :
    State :=
  let (next, seen) := (job.exchange access).step stage
  { s with stage := .within job next, events := s.events ++ seen }

/-- The next step of a sequence of calls. -/
def step (access : Access) (s : State) : State :=
  match s.stage with
  | .idle =>
    match s.waiting with
    | [] => s
    | job :: rest => { s with waiting := rest }.advance access job .idle
  | .within job (.left found) =>
    { s with stage := .idle, results := s.results ++ [job.call.conclude found] }
  | .within job stage => s.advance access job stage

/-- A number of steps of a sequence of calls. -/
def steps (access : Access) : Nat → State → State
  | 0, s => s
  | n + 1, s => steps access n (s.step access)

/-- A sequence of calls after a number of steps. -/
def after (access : Access) (jobs : List Job) (n : Nat) : State :=
  steps access n { waiting := jobs }

end State

end Calls

end Costar
