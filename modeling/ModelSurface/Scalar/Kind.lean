/-!
The scalar kinds of fields, parameters and results.
-/

namespace ModelSurface

inductive Kind where
  | string
  | integer
  | float
  | boolean
  | date
  | time
  | datetime
  | decimal
  | uuid
  | duration
  | json
deriving DecidableEq, Repr, Inhabited

namespace Kind

def all : List Kind :=
  [.string, .integer, .float, .boolean, .date, .time, .datetime, .decimal, .uuid, .duration, .json]

theorem mem_all (kind : Kind) : kind ∈ all := by cases kind <;> decide

def name : Kind → String
  | .string => "string"
  | .integer => "integer"
  | .float => "float"
  | .boolean => "boolean"
  | .date => "date"
  | .time => "time"
  | .datetime => "datetime"
  | .decimal => "decimal"
  | .uuid => "uuid"
  | .duration => "duration"
  | .json => "json"

/-- The kind a definition names; `date_time` is another word for `datetime`. -/
def ofName? (word : String) : Option Kind :=
  if word = "date_time" then some .datetime else all.find? fun kind => kind.name == word

/-- The name of the scalar type in the generated surface. -/
def typeName : Kind → String
  | .string => "String"
  | .integer => "Int"
  | .float => "Float"
  | .boolean => "Boolean"
  | .date => "Date"
  | .time => "Time"
  | .datetime => "DateTime"
  | .decimal => "Decimal"
  | .uuid => "UUID"
  | .duration => "Duration"
  | .json => "JSON"

/-- Whether values are compared by `lt`, `lte`, `gt`, `gte` and `range`. -/
def isOrderable : Kind → Bool
  | .boolean | .uuid | .json => false
  | _ => true

def isText : Kind → Bool
  | .string => true
  | _ => false

def isSortable : Kind → Bool
  | .json => false
  | _ => true

def isIdentity : Kind → Bool
  | .integer | .uuid => true
  | _ => false

end Kind

end ModelSurface
