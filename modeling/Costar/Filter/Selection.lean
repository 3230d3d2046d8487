import Costar.Filter.Predicate

/-!
# Filters of a request

The filters of all categories together.  They are given under the name of a category or under
an older name of it; a null asks for nothing.
-/

namespace Costar

namespace Category

/-- The names that a category's filter may be given under, the current one first. -/
def filterNames : Category → List Text
  | .person => ["person", "person_filter"]
  | .movie => ["movie", "movie_filter"]
  | .episode => ["episode", "tv_filter"]

/-- The category whose filter may be given under a name. -/
def ofFilterName? (name : Text) : Option Category :=
  all.find? (·.filterNames.contains name)

end Category

/-- A filter for each category, null where there is none. -/
structure Selection where
  person : Value := .null
  movie : Value := .null
  episode : Value := .null
deriving Repr

namespace Selection

/-- The filter of a category. -/
def get (s : Selection) : Category → Value
  | .person => s.person
  | .movie => s.movie
  | .episode => s.episode

/-- Replaces the filter of a category. -/
def set (s : Selection) (c : Category) (filter : Value) : Selection :=
  match c with
  | .person => { s with person := filter }
  | .movie => { s with movie := filter }
  | .episode => { s with episode := filter }

@[simp]
theorem get_set_self (s : Selection) (c : Category) (filter : Value) :
    (s.set c filter).get c = filter := by
  cases c <;> rfl

theorem get_set_of_ne (s : Selection) {c d : Category} (filter : Value) (h : d ≠ c) :
    (s.set c filter).get d = s.get d := by
  cases c <;> cases d <;> simp_all [set, get]

/-- Takes in one entry. -/
def add (s : Selection) (name : Text) (filter : Value) : Except Failure Selection :=
  match Category.ofFilterName? name with
  | none => .error (.unknownField "filters" name (.undeclaredCategory name))
  | some c =>
    match filter with
    | .null => .ok s
    | .map entries => .ok (s.set c (.map entries))
    | v => .error (.invalidOperand "filters" name (.expected "a mapping" v.kind))

/-- Reads the filters of a request.  What is not given asks for nothing. -/
def ofValue (filters : Value) : Except Failure Selection := do
  (← Predicate.entries filters).foldlM (fun s e => s.add e.1 e.2) {}

/-- The categories that have a filter, with their filters, in the order in which they are
applied. -/
def given (s : Selection) : List (Category × Value) :=
  (Category.all.map fun c => (c, s.get c)).filter fun e => e.2.isGiven

end Selection

end Costar
