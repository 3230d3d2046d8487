import Costar.Text

/-!
# Schema

The graph has people, movies and television episodes as its nodes, and cast and crew credits as
its edges.  Filters come in three categories, one for each label, and each category declares the
fields that may be filtered and their types.

Main statement: `Category.ofName?_name`, a category is found by its name.
-/

namespace Costar

/-! ## Labels and credits -/

namespace Label

/-- The label of people. -/
def person : String := "Person"

/-- The label of movies. -/
def movie : String := "Movie"

/-- The label of television episodes. -/
def episode : String := "TvEpisode"

/-- The label of television shows. -/
def tvShow : String := "TvShow"

/-- The labels of the projects that people work on. -/
def projects : List String := [movie, episode]

end Label

/-- The types of the edges between people and projects. -/
def creditTypes : List String := ["CAST_FOR", "CREW_FOR"]

/-! ## Fields -/

/-- What a field holds. -/
inductive FieldType where
  | string
  | int
  | float
  | boolean
  | date
  | stringList
  | intList
deriving DecidableEq, Repr

namespace FieldType

/-- All field types. -/
def all : List FieldType :=
  [.string, .int, .float, .boolean, .date, .stringList, .intList]

/-- The name of a field type. -/
def name : FieldType → String
  | .string => "string"
  | .int => "int"
  | .float => "float"
  | .boolean => "boolean"
  | .date => "date"
  | .stringList => "string_list"
  | .intList => "int_list"

/-- The field type of a name. -/
def ofName? (name : Text) : Option FieldType :=
  all.find? (·.name == name)

/-- Whether the values of the type can be compared, and lie in ranges. -/
def isOrdered : FieldType → Bool
  | .int | .float | .date => true
  | _ => false

theorem ofName?_name (t : FieldType) : ofName? t.name = some t := by
  cases t <;> decide

end FieldType

/-! ## Categories -/

/-- A category of filters. -/
inductive Category where
  | person
  | movie
  | episode
deriving DecidableEq, Repr

namespace Category

/-- All categories, in the order in which their filters are applied. -/
def all : List Category :=
  [.person, .movie, .episode]

/-- The name of a category. -/
def name : Category → String
  | .person => "person"
  | .movie => "movie"
  | .episode => "episode"

/-- The category of a name. -/
def ofName? (name : Text) : Option Category :=
  all.find? (·.name == name)

/-- The label of the nodes that a category filters. -/
def label : Category → String
  | .person => Label.person
  | .movie => Label.movie
  | .episode => Label.episode

/-- The fields of a category with their types. -/
def fields : Category → List (String × FieldType)
  | .person =>
    [("adult", .boolean), ("birthday", .date), ("deathday", .date), ("gender", .int),
      ("imdb_id", .string), ("name", .string), ("person_id", .int), ("popularity", .float)]
  | .movie =>
    [("adult", .boolean), ("budget", .int), ("revenue", .int), ("genres", .stringList),
      ("imdb_id", .string), ("movie_id", .int), ("production_companies", .intList),
      ("spoken_languages", .stringList), ("release_date", .date), ("status", .string),
      ("runtime", .int), ("title", .string)]
  | .episode =>
    [("air_date", .date), ("episode_id", .string), ("vote_average", .float), ("vote_count", .int),
      ("runtime", .int), ("season", .int), ("episode", .int), ("show_id", .int),
      ("title", .string)]

/-- The type of a field, if the category declares it. -/
def fieldType? (c : Category) (field : String) : Option FieldType :=
  c.fields.lookup field

theorem ofName?_name (c : Category) : ofName? c.name = some c := by
  cases c <;> decide

end Category

end Costar
