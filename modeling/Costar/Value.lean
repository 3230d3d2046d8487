import Costar.Calendar.Iso
import Costar.Number.Shortest
import Costar.Text

/-!
# Values

The values that properties of a graph, operands of filters and parameters of queries take.
Apart from the usual data there are the dates of the calendar, and the temporal values that the
graph store has of its own and that `Value.toNative` turns into dates.

Main definitions: `Value.same` (equality as numbers, texts and so on), `Value.identical`
(equality that tells kinds apart) and `Value.lt`.
-/

namespace Costar

/-- A value. -/
inductive Value where
  | null
  | bool (b : Bool)
  | int (n : Int)
  | float (x : Binary64)
  | text (s : Text)
  | list (items : List Value)
  | tuple (items : List Value)
  | map (entries : List (Text × Value))
  | date (d : Date)
  | dateTime (t : DateTime)
  | graphDate (d : Date)
  | graphDateTime (t : DateTime)
  | bytes (bs : List UInt8)
deriving Repr

namespace Value

instance : Inhabited Value := ⟨.null⟩

/-- The name that messages use for the kind of a value. -/
def kind : Value → String
  | .null => "NoneType"
  | .bool _ => "bool"
  | .int _ => "int"
  | .float _ => "float"
  | .text _ => "str"
  | .list _ => "list"
  | .tuple _ => "tuple"
  | .map _ => "dict"
  | .date _ => "date"
  | .dateTime _ => "datetime"
  | .graphDate _ => "Date"
  | .graphDateTime _ => "DateTime"
  | .bytes _ => "bytes"

/-- Whether a value counts as given: neither null, false, a zero nor empty. -/
def isGiven : Value → Bool
  | .null => false
  | .bool b => b
  | .int n => n != 0
  | .float x => !x.isZero
  | .text s => !s.isEmpty
  | .list items => !items.isEmpty
  | .tuple items => !items.isEmpty
  | .map entries => !entries.isEmpty
  | .bytes bs => !bs.isEmpty
  | .date _ | .dateTime _ | .graphDate _ | .graphDateTime _ => true

/-- Whether a value is null. -/
def isNull : Value → Bool
  | .null => true
  | _ => false

/-! ## Native values -/

mutual

/-- Replaces the store's own temporal values by dates, also inside lists but not inside tuples
and maps. -/
def toNative : Value → Value
  | .graphDate d => .date d
  | .graphDateTime t => .dateTime t
  | .list items => .list (toNativeItems items)
  | v => v

/-- `toNative` on every item of a list. -/
def toNativeItems : List Value → List Value
  | [] => []
  | v :: vs => toNative v :: toNativeItems vs

end

theorem toNativeItems_eq_map (items : List Value) : toNativeItems items = items.map toNative := by
  induction items with
  | nil => rfl
  | cons v vs ih => rw [toNativeItems, ih, List.map_cons]

@[simp]
theorem toNative_list (items : List Value) :
    toNative (.list items) = .list (items.map toNative) := by
  rw [toNative, toNativeItems_eq_map]

/-! ## Equality and order -/

/-- The number that a value is, booleans being zero and one. -/
def wholeNumber? : Value → Option Int
  | .bool b => some (if b then 1 else 0)
  | .int n => some n
  | _ => none

/-- Whether a value is the day `d`, in the calendar or in the store. -/
def sameDay (d : Date) : Value → Bool
  | .date e => d == e
  | .graphDate e => d == e
  | _ => false

/-- Whether a value is the day and time `t`, in the calendar or in the store. -/
def sameTime (t : DateTime) : Value → Bool
  | .dateTime u => t == u
  | .graphDateTime u => t == u
  | _ => false

mutual

/-- Whether two values are equal.  Numbers of different kinds are compared exactly, and the
entries of maps in any order.  The store's own days equal those of the calendar, even with a time
of day on them. -/
def same : Value → Value → Bool
  | .null, w => w.isNull
  | .bool b, w => sameNumber (if b then 1 else 0) w
  | .int n, w => sameNumber n w
  | .float x, .float y => x.eqv y
  | .float x, w =>
    match w.wholeNumber? with
    | some n => x.toInt? == some n
    | none => false
  | .text s, .text t => s == t
  | .list vs, .list ws => sameItems vs ws
  | .tuple vs, .tuple ws => sameItems vs ws
  | .map es, .map fs => es.length == fs.length && sameEntries es fs
  | .date d, w => sameDay d w
  | .graphDate d, .dateTime t => d == t.date
  | .graphDate d, w => sameDay d w
  | .dateTime t, .graphDate e => t.date == e
  | .dateTime t, w => sameTime t w
  | .graphDateTime t, w => sameTime t w
  | .bytes bs, .bytes cs => bs == cs
  | _, _ => false

/-- Whether a value is a number equal to `n`. -/
def sameNumber (n : Int) : Value → Bool
  | .float x => x.toInt? == some n
  | w => w.wholeNumber? == some n

/-- `same` on lists of one length. -/
def sameItems : List Value → List Value → Bool
  | [], [] => true
  | v :: vs, w :: ws => same v w && sameItems vs ws
  | _, _ => false

/-- Whether every entry has an equal one under its key among `fs`. -/
def sameEntries : List (Text × Value) → List (Text × Value) → Bool
  | [], _ => true
  | (k, v) :: es, fs =>
    (match fs.lookup k with
      | some w => same v w
      | none => false) && sameEntries es fs

end

mutual

/-- Whether two values are the same in kind and content, the entries of maps in any order. -/
def identical : Value → Value → Bool
  | .null, .null => true
  | .bool b, .bool c => b == c
  | .int n, .int m => n == m
  | .float x, .float y => x == y
  | .text s, .text t => s == t
  | .list vs, .list ws => identicalItems vs ws
  | .tuple vs, .tuple ws => identicalItems vs ws
  | .map es, .map fs => es.length == fs.length && identicalEntries es fs
  | .date d, .date e => d == e
  | .dateTime t, .dateTime u => t == u
  | .graphDate d, .graphDate e => d == e
  | .graphDateTime t, .graphDateTime u => t == u
  | .bytes bs, .bytes cs => bs == cs
  | _, _ => false

/-- `identical` on lists of one length. -/
def identicalItems : List Value → List Value → Bool
  | [], [] => true
  | v :: vs, w :: ws => identical v w && identicalItems vs ws
  | _, _ => false

/-- Whether every entry has an identical one under its key among `fs`. -/
def identicalEntries : List (Text × Value) → List (Text × Value) → Bool
  | [], _ => true
  | (k, v) :: es, fs =>
    (match fs.lookup k with
      | some w => identical v w
      | none => false) && identicalEntries es fs

end

/-- Whether one value is below another.  Whole numbers, binary64 numbers and dates are ordered
among themselves. -/
def lt : Value → Value → Bool
  | .int n, .int m => n < m
  | .float x, .float y => x.lt y
  | .date d, .date e => d.lt e
  | _, _ => false

end Value

end Costar
