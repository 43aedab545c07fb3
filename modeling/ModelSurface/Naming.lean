import ModelSurface.Text.Lowercase
import ModelSurface.Text.Words

/-!
Names of generated types and operations.
-/

namespace ModelSurface.Naming

def isAsciiLetter (c : Char) : Bool := ('a' ≤ c && c ≤ 'z') || ('A' ≤ c && c ≤ 'Z')

/-- A letter, then letters, digits and underscores. -/
def isValid (name : String) : Bool :=
  match name.toList with
  | [] => false
  | c :: rest =>
    isAsciiLetter c && rest.all fun c => isAsciiLetter c || c.isDigit || c == '_'

def firstRepeatedFrom (seen : List String) : List String → Option String
  | [] => none
  | name :: names =>
    if seen.contains name then some name else firstRepeatedFrom (name :: seen) names

/-- The first name that a name before it equals. -/
def firstRepeated (names : List String) : Option String := firstRepeatedFrom [] names

def endsIn (text ending : List Char) : Bool := ending.reverse.isPrefixOf text.reverse

def plural (word : String) : String :=
  let lower := Text.lowercase word.toList
  if word.isEmpty then ""
  else if ["s", "x", "z", "ch", "sh"].any fun ending => endsIn lower ending.toList then word ++ "es"
  else
    match lower.reverse with
    | 'y' :: before :: _ =>
      if "aeiou".toList.contains before then word ++ "s"
      else String.ofList word.toList.dropLast ++ "ies"
    | _ => word ++ "s"

def output (model : String) : String := Text.capitalCase model

def createInput (model : String) : String := s!"Create{Text.capitalCase model}Input"

def updateInput (model : String) : String := s!"Update{Text.capitalCase model}Input"

def deleteInput (model : String) : String := s!"Delete{Text.capitalCase model}Input"

/-- The filter of a model from which `remaining` of `depth` relations may still be followed. -/
def filter (model : String) (remaining depth : Nat) : String :=
  let base := Text.capitalCase model
  if remaining = depth then s!"{base}Filter"
  else if remaining = 0 then s!"{base}ScalarFilter"
  else s!"{base}FilterDepth{remaining}"

def orderField (model : String) : String := s!"{Text.capitalCase model}OrderField"

def orderBy (model : String) : String := s!"{Text.capitalCase model}OrderBy"

def page (model : String) : String := s!"{Text.capitalCase model}Page"

def reference (model : String) : String := s!"{Text.capitalCase model}Reference"

end ModelSurface.Naming
