import ModelSurface.Calendar.Instant
import ModelSurface.Calendar.Time
import ModelSurface.Json.Basic
import ModelSurface.Numeric.Decimal
import ModelSurface.Scalar.Kind
import ModelSurface.Uuid

/-!
Values of fields and parameters, how they are shown, and when two of them are equal.
-/

namespace ModelSurface

inductive Value where
  | null
  | bool (value : Bool)
  | int (value : Int)
  | float (value : Binary64)
  | str (value : String)
  | date (value : Date)
  | time (value : Time)
  | instant (value : Instant)
  | decimal (value : Decimal)
  | uuid (value : Uuid)
  | duration (value : Duration)
  | json (value : Json)
  | list (items : List Value)

instance : Inhabited Value := ⟨.null⟩

namespace Value

def isNull : Value → Bool
  | .null => true
  | _ => false

def str? : Value → Option String
  | .str s => some s
  | _ => none

mutual

def toJson : Value → Json
  | .null => .null
  | .bool b => .bool b
  | .int i => .num (.int i)
  | .float x => .num (.float x)
  | .str s => .str s
  | .date d => .str d.text
  | .time t => .str t.text
  | .instant t => .str t.text
  | .decimal d => .str d.text
  | .uuid u => .str u.text
  | .duration d => .num d.toNumber
  | .json j => j
  | .list items => .arr (itemsToJson items)

def itemsToJson : List Value → List Json
  | [] => []
  | item :: items => item.toJson :: itemsToJson items

end

/-- The text of a value: a string as it is, anything else as its document. -/
def text : Value → String
  | .str s => s
  | value => value.toJson.text

mutual

/-- Equality of values: decimals whatever their places, floating point numbers by value. -/
def same : Value → Value → Bool
  | .null, .null => true
  | .bool a, .bool b => a == b
  | .int a, .int b => a == b
  | .float a, .float b => a.same b
  | .str a, .str b => a == b
  | .date a, .date b => a == b
  | .time a, .time b => a == b
  | .instant a, .instant b => a == b
  | .decimal a, .decimal b => a.same b
  | .uuid a, .uuid b => a == b
  | .duration a, .duration b => a == b
  | .json a, .json b => a.same b
  | .list a, .list b => sameItems a b
  | _, _ => false

def sameItems : List Value → List Value → Bool
  | [], [] => true
  | a :: as, b :: bs => a.same b && sameItems as bs
  | _, _ => false

end

/-- Whether a single value that is not null is of a kind. -/
def isOf : Value → Kind → Bool
  | .bool _, .boolean => true
  | .int _, .integer => true
  | .float _, .float => true
  | .str _, .string => true
  | .date _, .date => true
  | .time _, .time => true
  | .instant _, .datetime => true
  | .decimal _, .decimal => true
  | .uuid _, .uuid => true
  | .duration _, .duration => true
  | .json _, .json => true
  | _, _ => false

/-- Whether the value is one of `kind`, or a list of such values. Null fits everywhere, but not
inside a list. -/
def fits (value : Value) (kind : Kind) (list : Bool) : Bool :=
  match value, list with
  | .null, _ => true
  | .list items, true => items.all fun item => item.isOf kind
  | _, true => false
  | value, false => value.isOf kind

/-- The order of two values of one kind; none when they cannot be compared. -/
def compare? : Value → Value → Option Ordering
  | .bool a, .bool b => some (compare a b)
  | .int a, .int b => some (compare a b)
  | .float a, .float b => some (a.compare b)
  | .int a, .float b => some ((Binary64.ofInt a).compare b)
  | .float a, .int b => some (a.compare (Binary64.ofInt b))
  | .str a, .str b => some (compare a b)
  | .date a, .date b => some (a.compare b)
  | .time a, .time b => some (a.compare b)
  | .instant a, .instant b => some (a.compare b)
  | .decimal a, .decimal b => some (a.compare b)
  | .uuid a, .uuid b => some (a.compare b)
  | .duration a, .duration b => some (a.compare b)
  | _, _ => none

/-- The order for sorting: null first, values that cannot be compared tie. -/
def sortCompare (a b : Value) : Ordering :=
  match a.isNull, b.isNull with
  | true, true => .eq
  | true, false => .lt
  | false, true => .gt
  | false, false => (a.compare? b).getD .eq

end Value

end ModelSurface
