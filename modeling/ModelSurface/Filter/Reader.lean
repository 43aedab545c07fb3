import ModelSurface.Filter.Expression
import ModelSurface.Filter.Type
import ModelSurface.Violation.Basic

/-!
Filters out of the documents in which callers write them. Everything that is wrong with a filter
is reported, in the order of the keys.
-/

namespace ModelSurface

namespace Operand

/-- A value to compare with, which is never null. -/
def readValue (kind : Kind) (list : Bool) (json : Json) : Except FilterFault Value :=
  if json.isNull then .error .nullOperand
  else
    match Value.ofJson kind list json with
    | .ok v => .ok v
    | .error fault => .error (.operand fault)

def read (op : FilterOp) (kind : Kind) (list : Bool) (json : Json) : Except FilterFault Operand :=
  match op with
  | .isNull =>
    match json with
    | .bool b => .ok (.flag b)
    | _ => .error .flag
  | .isIn | .notIn =>
    match json with
    | .arr items => (items.mapM (readValue kind list)).map .values
    | _ => .error .values
  | .range =>
    match json with
    | .arr [low, high] => do
      let low ← readValue kind list low
      let high ← readValue kind list high
      .ok (.range low high)
    | _ => .error .range
  | _ => (readValue kind list json).map .value

end Operand

namespace Filter

def readPredicate (field : String) (type : OperatorType) (path name : String) (json : Json) :
    Checked Filter :=
  match (FilterOp.ofName? name).filter type.operators.contains with
  | none => Checked.fault path (.filter (.operator name))
  | some op =>
    match Operand.read op type.kind type.list json with
    | .ok operand => .ok (.leaf field op operand)
    | .error fault => Checked.fault path (.filter fault)

def readPredicates (field : String) (type : OperatorType) (path : String) :
    List (String × Json) → Checked (List Filter)
  | [] => .ok []
  | (name, json) :: rest =>
    Checked.both List.cons (readPredicate field type s!"{path}.{name}" name json)
      (readPredicates field type path rest)

mutual

def read (type : FilterType) (path : String) : Json → Checked Filter
  | .obj members => (readMembers type path members).map conjunction
  | _ => Checked.fault path (.filter .object)

def readMembers (type : FilterType) (path : String) :
    List (String × Json) → Checked (List Filter)
  | [] => .ok []
  | (name, json) :: rest =>
    let here := s!"{path}.{name}"
    let filters : Checked (List Filter) :=
      if name = "and" then
        match json with
        | .arr items => (readItems type here 0 items).map fun filters => [.all filters]
        | _ => Checked.fault here (.filter .list)
      else if name = "or" then
        match json with
        | .arr items => (readItems type here 0 items).map fun filters => [.any filters]
        | _ => Checked.fault here (.filter .list)
      else if name = "not" then
        match json with
        | .arr [item] => (read type here item).map fun filter => [.not filter]
        | .arr _ => Checked.fault here (.filter .negation)
        | json => (read type here json).map fun filter => [.not filter]
      else
        match type.field? name with
        | none => Checked.fault here (.filter (.unknownField type.name))
        | some (.relation _ target _ inner) =>
          (read inner here json).map fun filter => [.related name target filter]
        | some (.scalar _ kind list nullable) =>
          match json with
          | .obj members => readPredicates name ⟨kind, list, nullable⟩ here members
          | _ => Checked.fault here (.filter .operators)
    Checked.both List.append filters (readMembers type path rest)

def readItems (type : FilterType) (path : String) (index : Nat) :
    List Json → Checked (List Filter)
  | [] => .ok []
  | item :: items =>
    Checked.both List.cons (read type s!"{path}[{index}]" item)
      (readItems type path (index + 1) items)

end

def ofJson (type : FilterType) (json : Json) : Checked Filter := read type "filter" json

end Filter

end ModelSurface
