import Costar.Graph.Session

/-!
# Runs

A run is a computation that talks to the graph store: what the store saw of it, the warnings it
gave and what came of it.  Runs are put one after another by `bind`; after a failure nothing
more happens.
-/

namespace Costar

/-- Something that went wrong with the show of an episode, without failing the run. -/
inductive Warning where
  | lookupFailed (episodeId : Value) (failure : Failure)
  | missingShow (episodeId reference : Value)
deriving Repr

namespace Warning

/-- The wording of a warning. -/
def message : Warning → Text
  | .lookupFailed episodeId failure =>
    "Parent show lookup for episode " ++ episodeId.display ++ " failed: " ++ failure.message
  | .missingShow episodeId reference =>
    "Episode " ++ episodeId.display ++ " references missing show " ++ reference.display

end Warning

/-- What the store saw, the warnings, and the result or the failure. -/
structure Run (α : Type) where
  events : List Event := []
  warnings : List Warning := []
  result : Except Failure α

namespace Run

variable {α β : Type}

/-- A run that only has a result. -/
def ofExcept (result : Except Failure α) : Run α where
  result := result

/-- A run that fails. -/
def fail (f : Failure) : Run α :=
  ofExcept (.error f)

/-- A run, and after it the run that its result leads to. -/
def bind (x : Run α) (f : α → Run β) : Run β :=
  match x.result with
  | .error e => ⟨x.events, x.warnings, .error e⟩
  | .ok a => ⟨x.events ++ (f a).events, x.warnings ++ (f a).warnings, (f a).result⟩

instance : Monad Run where
  pure a := ofExcept (.ok a)
  bind := Run.bind

/-- A run of a single exchange with the store. -/
def ofExchange (x : Exchange β) (result : Except Failure α) : Run α where
  events := x.events
  result := result

@[simp]
theorem events_ofExcept (r : Except Failure α) : (ofExcept r).events = [] :=
  rfl

@[simp]
theorem result_ofExcept (r : Except Failure α) : (ofExcept r).result = r :=
  rfl

theorem bind_of_error {x : Run α} {e : Failure} (h : x.result = .error e) (f : α → Run β) :
    x >>= f = ⟨x.events, x.warnings, .error e⟩ := by
  show Run.bind x f = _
  simp [Run.bind, h]

theorem bind_of_ok {x : Run α} {a : α} (h : x.result = .ok a) (f : α → Run β) :
    x >>= f = ⟨x.events ++ (f a).events, x.warnings ++ (f a).warnings, (f a).result⟩ := by
  show Run.bind x f = _
  simp [Run.bind, h]

end Run

/-! ## The log of a run -/

/-- What an observer keeps of the events: the queries in the order in which they were asked, the
largest number of lookups under way together, and how many sessions were left open. -/
structure Log where
  queries : List Query
  maxActive : Nat
  unclosed : Int
deriving Repr

namespace Log

/-- The queries among events. -/
def queriesOf (events : List Event) : List Query :=
  events.filterMap fun
    | .ran query => some query
    | _ => none

/-- The number of lookups under way after an event.  Only sessions of lookups overlap, so while
there are any the session that is closed is one of them. -/
def activeAfter (active : Nat) : Event → Nat
  | .ran query => if query.statement = .showLookup then active + 1 else active
  | .closed => active - 1
  | .opened _ => active

/-- The largest number of lookups under way together, when some are under way before. -/
def maxActiveFrom (active : Nat) : List Event → Nat
  | [] => active
  | e :: es => max active (maxActiveFrom (activeAfter active e) es)

/-- The sessions opened less the sessions closed, after an event. -/
def unclosedAfter (n : Int) : Event → Int
  | .opened _ => n + 1
  | .closed => n - 1
  | .ran _ => n

/-- The sessions opened less the sessions closed. -/
def unclosedOf (events : List Event) : Int :=
  events.foldl unclosedAfter 0

/-- The log of events. -/
def ofEvents (events : List Event) : Log where
  queries := queriesOf events
  maxActive := maxActiveFrom 0 events
  unclosed := unclosedOf events

end Log

end Costar
