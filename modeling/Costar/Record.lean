import Costar.Value

/-!
# Records

Values under names, in the order in which the names were first given: the properties of a
node, the parameters of a query, the entries of a filter.

Main statements: `Record.get?_put_self`, `Record.get?_put_of_ne` and `Record.keys_put`.
-/

namespace Costar

/-- Values under names. -/
abbrev Record (Name : Type := Text) := List (Name × Value)

namespace Record

variable {Name : Type}

/-- The names, in order. -/
def keys (r : Record Name) : List Name :=
  r.map (·.1)

/-- Replaces the store's own temporal values by dates. -/
def toNative (r : Record Name) : Record Name :=
  r.map fun e => (e.1, e.2.toNative)

@[simp]
theorem keys_toNative (r : Record Name) : r.toNative.keys = r.keys := by
  simp [toNative, keys]

variable [DecidableEq Name]

/-- The value under a name. -/
def get? (r : Record Name) (key : Name) : Option Value :=
  r.lookup key

/-- Whether a name has a value other than null. -/
def populates (r : Record Name) (key : Name) : Bool :=
  match r.get? key with
  | some v => !v.isNull
  | none => false

/-- The value under a name, null where there is none. -/
def getOrNull (r : Record Name) (key : Name) : Value :=
  (r.get? key).getD .null

/-- Gives a name a value.  A new name comes last, a known one keeps its place. -/
def put (r : Record Name) (key : Name) (v : Value) : Record Name :=
  match r with
  | [] => [(key, v)]
  | (k, w) :: rest => if k = key then (k, v) :: rest else (k, w) :: put rest key v

/-- Puts every entry of a second record into a first. -/
def merge (r : Record Name) (entries : Record Name) : Record Name :=
  entries.foldl (fun acc e => acc.put e.1 e.2) r

/-- The record of a list of entries, where the last value given to a name counts. -/
def ofEntries (entries : Record Name) : Record Name :=
  merge [] entries

/-- A record under strings as a value. -/
def toValue (r : Record String) : Value :=
  .map (r.map fun e => (.whole e.1, e.2))

@[simp]
theorem get?_put_self (r : Record Name) (key : Name) (v : Value) :
    (r.put key v).get? key = some v := by
  induction r with
  | nil => simp [put, get?]
  | cons e rest ih =>
    obtain ⟨k, w⟩ := e
    simp only [put]
    split
    · next h => simp [get?, h]
    · next h =>
      have hk : (key == k) = false := by simpa using Ne.symm h
      simpa [get?, List.lookup_cons, hk] using ih

theorem get?_put_of_ne (r : Record Name) {key other : Name} (v : Value) (h : other ≠ key) :
    (r.put key v).get? other = r.get? other := by
  induction r with
  | nil =>
    have ho : (other == key) = false := by simpa using h
    simp [put, get?, List.lookup_cons, ho]
  | cons e rest ih =>
    obtain ⟨k, w⟩ := e
    simp only [put]
    split
    · next hk =>
      subst hk
      have ho : (other == k) = false := by simpa using h
      simp [get?, List.lookup_cons, ho]
    · simp only [get?, List.lookup_cons] at ih ⊢
      split <;> simp_all

theorem keys_put (r : Record Name) (key : Name) (v : Value) :
    (r.put key v).keys = if key ∈ r.keys then r.keys else r.keys ++ [key] := by
  induction r with
  | nil => simp [put, keys]
  | cons e rest ih =>
    obtain ⟨k, w⟩ := e
    simp only [put]
    split
    · next h => simp [keys, h]
    · next h =>
      simp only [keys, List.map_cons, List.mem_cons] at ih ⊢
      rw [ih]
      have : key ≠ k := Ne.symm h
      by_cases hm : key ∈ rest.map (·.1) <;> simp [hm, this]

end Record

end Costar
