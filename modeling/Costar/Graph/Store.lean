import Costar.Graph.Session

/-!
# Store snapshots

A store whose replies are fixed beforehand: the path that every traversal finds, the shows by
their ids, the people that every search for names finds, and the faults.
-/

namespace Costar

/-- When a fault occurs: as the query is sent, or as the reply is read. -/
inductive FaultStage where
  | sending
  | reading
deriving DecidableEq, Repr

/-- A fault and when it occurs. -/
structure StagedFault where
  fault : Fault
  stage : FaultStage
deriving Repr

namespace StagedFault

/-- The reply in which a fault ends. -/
def reply {α : Type} (f : StagedFault) : Reply α :=
  match f.stage with
  | .sending => .refused f.fault
  | .reading => .interrupted f.fault

end StagedFault

/-- What is stored under the id of a show. -/
structure ShowEntry where
  key : Value
  properties : Option Record
  fault : Option StagedFault
deriving Repr

/-- The contents of a store. -/
structure Store where
  path : Option PathColumn := none
  shows : List ShowEntry := []
  people : List Record := []
  traversalFault : Option StagedFault := none
  suggestionFault : Option StagedFault := none
  connectFault : Option Fault := none
deriving Repr

namespace Store

/-- The reply to a traversal. -/
def replyPath (s : Store) (_ : Query) : Reply PathColumn :=
  match s.traversalFault with
  | some f => f.reply
  | none => .rows s.path.toList

/-- The reply to a lookup of a show: that of the first entry under its id. -/
def replyShow (s : Store) (key : Value) : Reply EntityColumn :=
  match s.shows.find? fun e => e.key.identical key with
  | none => .rows []
  | some e =>
    match e.fault with
    | some f => f.reply
    | none => .rows (e.properties.toList.map .entity)

/-- The reply to a search for names. -/
def replyPeople (s : Store) : Reply EntityColumn :=
  match s.suggestionFault with
  | some f => f.reply
  | none => .rows (s.people.map .entity)

/-- The replies of a store. -/
def database (s : Store) : Database where
  paths := s.replyPath
  entities query :=
    match query.statement with
    | .showLookup => s.replyShow (query.parameters.getOrNull "tv_id")
    | _ => s.replyPeople
  connectFault := s.connectFault

instance : Coe Store Database := ⟨database⟩

end Store

end Costar
