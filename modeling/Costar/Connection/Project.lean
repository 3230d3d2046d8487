import Costar.Failure

/-!
# Projects and credits

A project is a movie or an episode, and a credit is for acting or for work in the crew.  Stored
records do not say which: it is told by the identifying fields that are populated, a movie
before an episode and an acting credit before one in the crew.

An episode belongs to a show, which is pending until it has been looked up.
-/

namespace Costar

/-- The show of an episode, as far as it is known. -/
inductive ParentShow where
  | pending
  | absent
  | found (properties : Record)
deriving Repr

/-- A movie or an episode, with its stored properties. -/
inductive Project where
  | movie (properties : Record)
  | episode (properties : Record) (parent : ParentShow)
deriving Repr

/-- An acting credit or a crew credit, with its stored properties. -/
inductive Credit where
  | cast (properties : Record)
  | crew (properties : Record)
deriving Repr

namespace Record

/-- The names in a record, in order of their letters. -/
def sortedKeys (r : Record) : List Text :=
  r.keys.mergeSort Text.le

/-- A record with a type name before its entries, unless it has one of its own. -/
def typed (name : String) (r : Record) : Record :=
  merge [("__typename", .text name)] r

end Record

namespace Project

/-- The project that a record describes. -/
def ofRecord (r : Record) : Except Failure Project :=
  if r.populates "movie_id" then .ok (.movie r)
  else if (["episode_id", "show_id", "tv_show_id"] : List Text).any r.populates then .ok (.episode r .pending)
  else .error (.unresolvedType .project r.sortedKeys)

/-- The project that a value describes. -/
def ofValue : Value → Except Failure Project
  | .map r => ofRecord r
  | _ => .error .notAMapping

/-- The name of a project's type. -/
def typeName : Project → String
  | .movie _ => "Movie"
  | .episode .. => "TvEpisode"

/-- The stored properties of a project. -/
def properties : Project → Record
  | .movie r => r
  | .episode r _ => r

/-- Changes the stored properties of a project. -/
def mapProperties (f : Record → Record) : Project → Project
  | .movie r => .movie (f r)
  | .episode r parent => .episode (f r) parent

/-- Replaces the show of an episode; a movie has none. -/
def withParent (parent : ParentShow) : Project → Project
  | .movie r => .movie r
  | .episode r _ => .episode r parent

/-- The id of an episode. -/
def episodeId (r : Record) : Value :=
  r.getOrNull "episode_id"

/-- The id of the show that an episode refers to, under the current name or the older one. -/
def showReference (r : Record) : Value :=
  if r.populates "show_id" then r.getOrNull "show_id" else r.getOrNull "tv_show_id"

/-- A project as it is reported; an episode only after its show has been looked up. -/
def describe : Project → Except Failure Record
  | .movie r => .ok (r.typed "Movie")
  | .episode r .pending => .error (.notEnriched (episodeId r))
  | .episode r .absent => .ok ((r.typed "TvEpisode").put "parent_show" .null)
  | .episode r (.found properties) =>
    .ok ((r.typed "TvEpisode").put "parent_show" (.map properties))

end Project

namespace Credit

/-- The credit that a record describes. -/
def ofRecord (r : Record) : Except Failure Credit :=
  if r.populates "character" then .ok (.cast r)
  else if r.populates "department" then .ok (.crew r)
  else .error (.unresolvedType .credit r.sortedKeys)

/-- The credit that a value describes. -/
def ofValue : Value → Except Failure Credit
  | .map r => ofRecord r
  | _ => .error .notAMapping

/-- The name of a credit's type. -/
def typeName : Credit → String
  | .cast _ => "castObj"
  | .crew _ => "crewObj"

/-- The stored properties of a credit. -/
def properties : Credit → Record
  | .cast r => r
  | .crew r => r

/-- Changes the stored properties of a credit. -/
def mapProperties (f : Record → Record) : Credit → Credit
  | .cast r => .cast (f r)
  | .crew r => .crew (f r)

/-- A credit as it is reported. -/
def describe (c : Credit) : Record :=
  c.properties.typed c.typeName

end Credit

end Costar
