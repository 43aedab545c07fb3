import ModelSurface.Text.Alphanumeric
import ModelSurface.Text.CaseMap

/-!
The words of an identifier, and the identifiers joined from words in snake case and in camel case
with a capital first letter.
-/

namespace ModelSurface.Text

/-- The maximal runs of letters and digits. -/
def alphanumericRuns : List Char → List (List Char)
  | [] => [[]]
  | c :: rest =>
    match alphanumericRuns rest with
    | [] => [[]]
    | run :: runs => if isAlphanumeric c then (c :: run) :: runs else [] :: run :: runs

inductive WordCase where
  | none
  | lower
  | upper
deriving DecidableEq

/-- Splits a run into words: in front of a capital that follows a small letter, and in front of
the last capital of several when a small letter follows it. `current` is the word so far, its last
character first. -/
def splitRun (word : WordCase) (current : List Char) : List Char → List (List Char)
  | [] => []
  | [c] => [(c :: current).reverse]
  | c :: next :: rest =>
    let after : WordCase := if isLower c then .lower else if isUpper c then .upper else word
    if after = .lower ∧ isUpper next then
      (c :: current).reverse :: splitRun .none [] (next :: rest)
    else if word = .upper ∧ isUpper c ∧ isLower next then
      current.reverse :: splitRun .none [c] (next :: rest)
    else splitRun after (c :: current) (next :: rest)

def words (text : List Char) : List (List Char) :=
  (alphanumericRuns text).flatMap (splitRun .none [])

/-- The lower case of a word; a capital sigma at its end becomes a final one. -/
def lowerWord : List Char → List Char
  | [] => []
  | [c] => if c = 'Σ' then ['ς'] else lowerChar c
  | c :: rest => lowerChar c ++ lowerWord rest

def capitalWord : List Char → List Char
  | [] => []
  | c :: rest => upperChar c ++ lowerWord rest

/-- `HTTPServer` and `http server` become `http_server`. -/
def snakeCase (text : String) : String :=
  String.ofList (['_'].intercalate ((words text.toList).map lowerWord))

/-- `http_server` becomes `HttpServer`. -/
def capitalCase (text : String) : String :=
  String.ofList ((words text.toList).flatMap capitalWord)

end ModelSurface.Text
