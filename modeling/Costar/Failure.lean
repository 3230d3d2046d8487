import Costar.Filter.Operator
import Costar.Graph.Fault
import Costar.Record
import Costar.Value.Text

/-!
# Failures

Every way in which a request can fail, as its cause, with one function for the wording.  The
first seven causes are reported to whoever asked; the others are mistakes of a caller or of the
graph store that no answer is foreseen for.
-/

namespace Costar

/-- What is wrong with an operand. -/
inductive OperandProblem where
  | expected (what : Text) (found : String)
  | notDate (text : Text)
  | notTwoBounds
deriving DecidableEq, Repr

/-- What is wrong with a filter key. -/
inductive FieldProblem where
  | undeclared
  | undeclaredCategory (name : Text)
  | unordered (field : String) (operator : Operator)
deriving DecidableEq, Repr

/-- Why a path is empty. -/
inductive EmptyPathReason where
  | noSegments
  | samePerson (id : Value)
deriving Repr

/-- What is wrong with a segment of a path. -/
inductive SegmentProblem where
  | labels (start finish : List String)
  | creditType (type : String)
  | ends
  | gap
  | wrongStart (id : Value)
  | wrongEnd (id : Value)
deriving Repr

/-- The two choices that are made by the populated fields of a record. -/
inductive UnionType where
  | project
  | credit
deriving DecidableEq, Repr

/-- A cause of failure. -/
inductive Failure where
  /-- An operand does not suit the field that it is given for. -/
  | invalidOperand (category field : Text) (problem : OperandProblem)
  /-- A filter is given for a field or a category that is not declared. -/
  | unknownField (category field : Text) (problem : FieldProblem)
  /-- A path has no segments, or leads from a person to the same person. -/
  | emptyPath (reason : EmptyPathReason)
  /-- A segment does not join a person and a project as it should. -/
  | malformedSegment (index : Int) (problem : SegmentProblem)
  /-- The fields of a record do not tell what it is. -/
  | unresolvedType (union : UnionType) (fields : List Text)
  /-- The store failed to find a path. -/
  | traversalFailed (fault : Fault)
  /-- The store failed to look something up. -/
  | lookupFailed (key : Value) (fault : Fault)
  /-- A fault that is not the store's own. -/
  | foreignFault (fault : Fault)
  /-- An episode is to be reported before its show has been looked up. -/
  | notEnriched (episodeId : Value)
  /-- A range does not have two operands. -/
  | operandCount (count : Nat)
  /-- A comparison has no operand. -/
  | missingOperand
  /-- A value that is to be read entry by entry is no mapping. -/
  | notAMapping
  /-- A whole number has no binary64 number near it. -/
  | integerTooLarge
  /-- A row of the store lacks a column. -/
  | missingColumn (name : String)
  /-- A stored path has a relationship without a node at its end. -/
  | missingNode (index : Nat)
  /-- The ends of a path without nodes are to be checked. -/
  | noNodes
  /-- There is no triple at a position. -/
  | noTriple (index : Nat)
  /-- A step is to be written before its show has been looked up. -/
  | pendingShow
deriving Repr

namespace OperandProblem

/-- The wording of an operand's problem. -/
def message : OperandProblem → Text
  | .expected what found => "expected " ++ what ++ ", got " ++ found
  | .notDate text => "'" ++ text ++ "' is not an ISO date (YYYY-MM-DD)"
  | .notTwoBounds => "range filters take exactly two bounds"

end OperandProblem

namespace FieldProblem

/-- The wording of a key's problem. -/
def message (category field : Text) : FieldProblem → Text
  | .undeclared => "Unknown field '" ++ field ++ "' for " ++ category ++ " filter"
  | .undeclaredCategory name => "Unknown filter category '" ++ name ++ "'"
  | .unordered base operator =>
    "Field '" ++ base ++ "' of " ++ category ++ " filter does not support " ++ operator.suffix

end FieldProblem

namespace SegmentProblem

/-- Labels as a value. -/
def labelList (labels : List String) : Value :=
  .list (labels.map fun (label : String) => .text label)

/-- The wording of a segment's problem. -/
def message : SegmentProblem → Text
  | .labels start finish =>
    "expected one person and one project, got " ++
      (Value.list [labelList start, labelList finish]).quoted
  | .creditType type => "unexpected relationship type " ++ type
  | .ends => "relationship does not join the segment's nodes"
  | .gap => "segment does not continue from the previous one"
  | .wrongStart id => "path does not start at person " ++ id.display
  | .wrongEnd id => "path does not end at person " ++ id.display

end SegmentProblem

namespace UnionType

/-- The name of a choice. -/
def name : UnionType → String
  | .project => "MovieOrTvEpisode"
  | .credit => "Relationship"

end UnionType

namespace Failure

/-- The wording of a failure. -/
def message : Failure → Text
  | .invalidOperand category field problem =>
    "Invalid operand for " ++ category ++ "." ++ field ++ ": " ++ problem.message
  | .unknownField category field problem => problem.message category field
  | .emptyPath .noSegments => "Path has no segments"
  | .emptyPath (.samePerson id) => "Person " ++ id.display ++ " is connected to themselves"
  | .malformedSegment index problem =>
    "Malformed segment " ++ toString index ++ ": " ++ problem.message
  | .unresolvedType union fields =>
    "Cannot resolve " ++ union.name ++ " from fields " ++ (Value.list (fields.map .text)).quoted
  | .traversalFailed fault => fault.message
  | .lookupFailed key fault => "Lookup for " ++ key.quoted ++ " failed: " ++ fault.message
  | .foreignFault fault => fault.message
  | .notEnriched episodeId => "Episode " ++ episodeId.quoted ++ " has not been enriched"
  | .operandCount count =>
    if count < 2 then "not enough values to unpack (expected 2, got " ++ toString count ++ ")"
    else "too many values to unpack (expected 2)"
  | .missingOperand => "a comparison has no operand"
  | .notAMapping => "a value is not a mapping"
  | .integerTooLarge => "an integer is too large for a float"
  | .missingColumn name => "a record has no column " ++ name
  | .missingNode index => "a path has no node " ++ toString index
  | .noNodes => "a path has no nodes"
  | .noTriple index => "a connection has no triple " ++ toString index
  | .pendingShow => "the show of an episode has not been looked up"

/-- The name under which a failure is reported, if it is one of those that are. -/
def reportedAs? : Failure → Option String
  | .invalidOperand .. => some "InvalidFilterOperand"
  | .unknownField .. => some "UnknownField"
  | .emptyPath _ => some "EmptyPath"
  | .malformedSegment .. => some "MalformedSegment"
  | .unresolvedType .. => some "UnresolvedType"
  | .traversalFailed _ => some "TraversalFailed"
  | .lookupFailed .. => some "LookupFailed"
  | _ => none

/-- Two steps succeed exactly when the first does and the second does after it. -/
theorem bind_eq_ok {α β : Type} {x : Except Failure α} {f : α → Except Failure β} {b : β} :
    x >>= f = .ok b ↔ ∃ a, x = .ok a ∧ f a = .ok b := by
  cases x <;> simp [bind, Except.bind]

end Failure

end Costar
