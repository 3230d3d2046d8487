import Costar.Search

/-!
# Workbench

A connection that is worked on step by step: it is found or read from a path, joined with
others, enriched, and changed in place, while the store behind it may change too.  An action that
fails leaves the connection as it was, but for the episodes that an enrichment has already
attached a show to.
-/

namespace Costar

/-- A store, with the times that its answers take, and the connection worked on. -/
structure Workbench where
  store : Database
  concurrency : Int
  timing : Timing
  connection : Connection := {}

namespace Workbench

/-- Something done on a workbench. -/
inductive Action where
  | useStore (store : Database) (timing : Timing)
  | find (first second : Value) (filters : Filters)
  | decompose (path : Path)
  | join (path : Path)
  | enrich
  | setProperty (triple : Nat) (part : Connection.Part) (key : Text) (v : Value)

/-- The access to the store that is used on a workbench. -/
def access : Access := ⟨none, .null⟩

/-- The search in the store. -/
def search (w : Workbench) : Search :=
  ⟨w.store, access, w.concurrency, w.timing⟩

/-- Replaces the connection by what a run has led to, unless it has failed. -/
def keep (w : Workbench) (run : Run Connection) : Workbench × Run Unit :=
  match run.result with
  | .ok c => ({ w with connection := c }, ⟨run.events, run.warnings, .ok ()⟩)
  | .error f => (w, ⟨run.events, run.warnings, .error f⟩)

/-- Does something on a workbench. -/
def act (w : Workbench) : Action → Workbench × Run Unit
  | .useStore store timing => ({ w with store, timing }, pure ())
  | .find first second filters => w.keep (w.search.find first second filters)
  | .decompose path => w.keep (.ofExcept (Connection.ofPath path))
  | .join path => w.keep (.ofExcept ((Connection.ofPath path).map w.connection.append))
  | .enrich =>
    let outcome := w.search.enrich w.connection
    ({ w with connection := outcome.connection }, outcome.run)
  | .setProperty triple part key v =>
    w.keep (.ofExcept (w.connection.setProperty triple part key v))

/-- Does several things one after another. -/
def actAll (w : Workbench) : List Action → Workbench
  | [] => w
  | a :: rest => (w.act a).1.actAll rest

end Workbench

end Costar
