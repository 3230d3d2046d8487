import Costar.PathRequest
import Costar.Run

/-!
# Queries

The three things that are asked of the graph store, each in a session of its own.  A fault of the
store becomes a failure of the query; any other fault passes through.  Rows are read only after the
session has been closed.
-/

namespace Costar

/-- The failure that a fault ends a query with: one of the store is reported, any other passes
through as it is. -/
def Fault.raised (report : Fault → Failure) (fault : Fault) : Failure :=
  if fault.isOfStore then report fault else .foreignFault fault

namespace Access

/-! ## What is asked -/

/-- Asks for a path.  There may be none. -/
def traversal (access : Access) (db : Database) (request : PathRequest) : Exchange PathColumn :=
  .make access db.paths (.traversal request.text) request.parameters

/-- Asks for the show of an id. -/
def showLookup (access : Access) (db : Database) (key : Value) : Exchange EntityColumn :=
  .make access db.entities .showLookup [("tv_id", key)]

/-- Asks for the most popular people with a text in their name. -/
def nameSuggestion (access : Access) (db : Database) (name : Text) (limit : Int) :
    Exchange EntityColumn :=
  .make access db.entities .nameSuggestion [("name", .text name), ("limit", .int limit)]

/-! ## What the rows say -/

/-- The variable that stands for a show. -/
def showVariable : String := "s"

/-- The variable that stands for a person whose name is suggested. -/
def suggestedVariable : String := "p"

/-- The rows of a reply, or the failure that the fault in their way is raised as. -/
def rowsOf {α : Type} (report : Fault → Failure) (reply : Reply α) : Except Failure (List α) :=
  reply.toExcept.mapError (Fault.raised report)

theorem rowsOf_eq_ok {α : Type} {report : Fault → Failure} {reply : Reply α} {rows : List α} :
    rowsOf report reply = .ok rows ↔ reply.toExcept = .ok rows := by
  unfold rowsOf
  cases reply.toExcept with
  | ok found =>
    constructor <;>
    · intro h
      cases h
      rfl
  | error fault => constructor <;> nofun

theorem rowsOf_eq_error {α : Type} {report : Fault → Failure} {reply : Reply α} {f : Failure} :
    rowsOf report reply = .error f ↔
      ∃ fault, reply.toExcept = .error fault ∧ fault.raised report = f := by
  unfold rowsOf
  cases reply.toExcept with
  | ok found => constructor <;> nofun
  | error fault =>
    constructor
    · intro h
      exact ⟨fault, rfl, Except.error.inj h⟩
    · rintro ⟨_, h, rfl⟩
      cases h
      rfl

/-- The path that rows hold, if they hold one: the first row counts. -/
def pathOf (rows : List PathColumn) : Except Failure (Option Path) :=
  match rows.head? with
  | none => .ok none
  | some .missing => .error (.missingColumn PathRequest.pathVariable)
  | some .null => .ok none
  | some (.path p) => p.toPath.map some

/-- The properties of the node that a row holds under a name, with native values. -/
def entityOf (name : String) : EntityColumn → Except Failure Record
  | .missing => .error (.missingColumn name)
  | .null => .error .notAMapping
  | .entity properties => .ok properties.toNative

/-- The properties of the show that rows hold, if they hold one: the first row counts. -/
def showOf (rows : List EntityColumn) : Except Failure (Option Record) :=
  match rows.head? with
  | none => .ok none
  | some column => (entityOf showVariable column).map some

/-- Rows that do not hold what they should are reported to nobody. -/
theorem reportedAs?_of_showOf {rows : List EntityColumn} {f : Failure}
    (h : showOf rows = .error f) : f.reportedAs? = none := by
  unfold showOf at h
  split at h
  · cases h
  · next column _ =>
    cases column <;> cases h <;> rfl

/-- The properties of the people that rows hold. -/
def peopleOf (rows : List EntityColumn) : Except Failure (List Record) :=
  rows.mapM (entityOf suggestedVariable)

/-! ## What comes of the queries -/

/-- What comes of a traversal. -/
def pathResult (reply : Reply PathColumn) : Except Failure (Option Path) :=
  rowsOf .traversalFailed reply >>= pathOf

/-- What comes of the lookup of a show: its properties, if there is one. -/
def showResult (key : Value) (reply : Reply EntityColumn) : Except Failure (Option Record) :=
  rowsOf (.lookupFailed key) reply >>= showOf

/-- What comes of a search for people with a text in their name. -/
def peopleResult (name : Text) (reply : Reply EntityColumn) : Except Failure (List Record) :=
  rowsOf (.lookupFailed (.text name)) reply >>= peopleOf

/-- Finds a path. -/
def findPath (access : Access) (db : Database) (request : PathRequest) : Run (Option Path) :=
  let x := access.traversal db request
  .ofExchange x (pathResult x.reply)

/-- Looks up the show of an id. -/
def lookUpShow (access : Access) (db : Database) (key : Value) : Run (Option Record) :=
  let x := access.showLookup db key
  .ofExchange x (showResult key x.reply)

/-- Suggests people with a text in their name. -/
def suggestNames (access : Access) (db : Database) (name : Text) (limit : Int) :
    Run (List Record) :=
  let x := access.nameSuggestion db name limit
  .ofExchange x (peopleResult name x.reply)

end Access

end Costar
