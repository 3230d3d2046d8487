import Costar.Text

/-!
# Faults of the graph store

What can go wrong between this library and the graph store.  Most faults are the store's own
and are reported as failures of the query; the others stand for mistakes elsewhere and pass
through as they are.
-/

namespace Costar

/-- The kind of a fault. -/
inductive FaultKind where
  | server
  | client
  | unavailable
  | sessionExpired
  | driver
  | runtime
  | value
deriving DecidableEq, Repr

/-- A fault with its text. -/
structure Fault where
  kind : FaultKind
  message : Text
deriving DecidableEq, Repr

namespace Fault

/-- Whether a fault is the store's own. -/
def isOfStore (f : Fault) : Bool :=
  match f.kind with
  | .runtime | .value => false
  | _ => true

end Fault

end Costar
