import ModelSurface.Record

/-!
The order of query results.
-/

namespace ModelSurface

inductive Direction where
  | ascending
  | descending
deriving DecidableEq, Repr

namespace Direction

def name : Direction → String
  | .ascending => "ASC"
  | .descending => "DESC"

def all : List Direction := [.ascending, .descending]

end Direction

structure OrderKey where
  field : String
  direction : Direction
deriving DecidableEq, Repr

namespace OrderKey

/-- The order of two records by one key; an absent field is null. -/
def compare (key : OrderKey) (a b : Record) : Ordering :=
  let left := (a.get? key.field).getD .null
  let right := (b.get? key.field).getD .null
  match key.direction with
  | .ascending => left.sortCompare right
  | .descending => right.sortCompare left

end OrderKey

namespace Record

/-- The order of identities; a record without one comes first. -/
def compareIdentity (field : String) (a b : Record) : Ordering :=
  match Record.identity? a field, Record.identity? b field with
  | none, none => .eq
  | none, some _ => .lt
  | some _, none => .gt
  | some a, some b => a.compare b

/-- The order of two records by the keys, and by identity where the keys leave them equal. -/
def compareBy (identity : String) (keys : List OrderKey) (a b : Record) : Ordering :=
  match keys with
  | [] => compareIdentity identity a b
  | key :: keys => (key.compare a b).then (compareBy identity keys a b)

/-- Puts a record into a list that is sorted backwards: in front of the first record it is not
smaller than. -/
def insertBackwards (identity : String) (keys : List OrderKey) (record : Record) :
    List Record → List Record
  | [] => [record]
  | other :: rest =>
    if compareBy identity keys record other = .lt then
      other :: insertBackwards identity keys record rest
    else record :: other :: rest

/-- The records in the order of the keys, equal ones in their old order. Each record moves forward
past those it is smaller than, which settles lists whose values cannot all be compared. -/
def sort (identity : String) (keys : List OrderKey) (records : List Record) : List Record :=
  (records.foldl (fun sorted record => insertBackwards identity keys record sorted) []).reverse

end Record

end ModelSurface
