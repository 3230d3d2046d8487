import Costar.Graph.Session
import Costar.Number.Numeral
import Costar.Text.UpperCase

/-!
# Settings

The settings of the service, read from environment variables.  A variable that is not set has a
default; a number that cannot be read refuses them all, the first such variable being reported.
-/

namespace Costar

namespace Text

/-- The pieces of a text between the occurrences of a character. -/
def splitAt (separator : Char) : List Char → List (List Char)
  | [] => [[]]
  | c :: cs =>
    if c = separator then [] :: splitAt separator cs
    else
      match splitAt separator cs with
      | [] => [[c]]
      | piece :: pieces => (c :: piece) :: pieces

end Text

/-- The settings of the service. -/
structure Settings where
  storeAddress : String
  storeUser : String
  storePassword : String
  database : Option String
  queryTimeout : Binary64
  concurrency : Int
  suggestionLimit : Int
  origins : List String
  host : String
  tcpPort : Int
  logLevel : String
deriving Repr

/-- Environment variables: the text of each name that is set. -/
abbrev Environment := String → Option String

namespace Settings

/-- The environment variables that settings are read from. -/
def variableNames : List String :=
  ["NEO4J_URI", "NEO4J_USER", "NEO4J_PASSWORD", "NEO4J_DATABASE", "QUERY_TIMEOUT_SECONDS",
    "ENRICHMENT_CONCURRENCY", "SUGGESTION_LIMIT", "CORS_ORIGINS", "API_HOST", "API_PORT",
    "LOG_LEVEL"]

/-- The pieces of a text between commas, without the blanks around them; those that are all
blank are left out. -/
def originsOf (text : String) : List String :=
  ((Text.splitAt ',' text.toList).map Text.trim).filterMap fun piece =>
    if piece.isEmpty then none else some (String.ofList piece)

/-- Reads the settings. -/
def load (env : Environment) : Except NumeralError Settings := do
  let text (name default : String) : String := (env name).getD default
  let queryTimeout ← Numeral.decimal (text "QUERY_TIMEOUT_SECONDS" "30")
  let concurrency ← Numeral.int (text "ENRICHMENT_CONCURRENCY" "8")
  let suggestionLimit ← Numeral.int (text "SUGGESTION_LIMIT" "5")
  let tcpPort ← Numeral.int (text "API_PORT" "8000")
  pure {
    storeAddress := text "NEO4J_URI" "bolt://localhost:7687"
    storeUser := text "NEO4J_USER" "neo4j"
    storePassword := text "NEO4J_PASSWORD" "password"
    database := (env "NEO4J_DATABASE").filter (!·.isEmpty)
    queryTimeout, concurrency, suggestionLimit
    origins := originsOf (text "CORS_ORIGINS" "https://studio.apollographql.com")
    host := text "API_HOST" "0.0.0.0"
    tcpPort
    logLevel := Text.upperCase (text "LOG_LEVEL" "INFO") }

/-- The settings where no variable is set. -/
def default : Settings where
  storeAddress := "bolt://localhost:7687"
  storeUser := "neo4j"
  storePassword := "password"
  database := none
  queryTimeout := ⟨0x403E000000000000⟩
  concurrency := 8
  suggestionLimit := 5
  origins := ["https://studio.apollographql.com"]
  host := "0.0.0.0"
  tcpPort := 8000
  logLevel := "INFO"

/-- How sessions with the graph store are opened. -/
def access (s : Settings) : Access :=
  ⟨s.database, .float s.queryTimeout⟩

end Settings

end Costar
