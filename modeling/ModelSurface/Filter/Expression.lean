import ModelSurface.Filter.Type
import ModelSurface.Record
import ModelSurface.Text.Lowercase

/-!
Filters: predicates on records, in the form in which they are evaluated.
-/

namespace ModelSurface

inductive Operand where
  | value (value : Value)
  | values (values : List Value)
  | range (low high : Value)
  | flag (flag : Bool)

namespace Operand

def toJson : Operand → Json
  | .value v => v.toJson
  | .values vs => .arr (vs.map Value.toJson)
  | .range low high => .arr [low.toJson, high.toJson]
  | .flag b => .bool b

def same : Operand → Operand → Bool
  | .value a, .value b => a.same b
  | .values as, .values bs => Value.sameItems as bs
  | .range low high, .range low' high' => low.same low' && high.same high'
  | .flag a, .flag b => a == b
  | _, _ => false

end Operand

inductive Filter where
  | leaf (field : String) (op : FilterOp) (operand : Operand)
  /-- Holds of a record that is related to some record of `target` of which the filter holds. -/
  | related (relation target : String) (filter : Filter)
  | all (filters : List Filter)
  | any (filters : List Filter)
  | not (filter : Filter)

abbrev RelatedRecords := String → Record → String → List Record

def RelatedRecords.none : RelatedRecords := fun _ _ _ => []

namespace Filter

instance : Inhabited Filter := ⟨.all []⟩

def eq (field : String) (value : Value) : Filter := .leaf field .eq (.value value)

/-- The conjunction of filters, a single one as it is. -/
def conjunction : List Filter → Filter
  | [filter] => filter
  | filters => .all filters

mutual

def toJson : Filter → Json
  | .leaf field op operand => Json.object [(field, Json.object [(op.name, operand.toJson)])]
  | .related relation _ filter => Json.object [(relation, filter.toJson)]
  | .all filters => Json.object [("and", .arr (listToJson filters))]
  | .any filters => Json.object [("or", .arr (listToJson filters))]
  | .not filter => Json.object [("not", filter.toJson)]

def listToJson : List Filter → List Json
  | [] => []
  | filter :: filters => filter.toJson :: listToJson filters

end

mutual

/-- Equality of filters; operands are compared as values. -/
def same : Filter → Filter → Bool
  | .leaf field op operand, .leaf field' op' operand' =>
    field == field' && op == op' && operand.same operand'
  | .related relation target filter, .related relation' target' filter' =>
    relation == relation' && target == target' && filter.same filter'
  | .all filters, .all filters' => sameList filters filters'
  | .any filters, .any filters' => sameList filters filters'
  | .not filter, .not filter' => filter.same filter'
  | _, _ => false

def sameList : List Filter → List Filter → Bool
  | [], [] => true
  | filter :: filters, filter' :: filters' => filter.same filter' && sameList filters filters'
  | _, _ => false

end

/-! ### Evaluation -/

def occursIn (needle : List Char) : List Char → Bool
  | [] => needle.isEmpty
  | c :: rest => needle.isPrefixOf (c :: rest) || occursIn needle rest

def textMatches (op : FilterOp) (text needle : List Char) : Bool :=
  let low := Text.lowercase text
  let lowNeedle := Text.lowercase needle
  match op with
  | .contains => occursIn needle text
  | .startsWith => needle.isPrefixOf text
  | .endsWith => needle.isSuffixOf text
  | .icontains => occursIn lowNeedle low
  | .istartsWith => lowNeedle.isPrefixOf low
  | .iendsWith => lowNeedle.isSuffixOf low
  | .iexact => low == lowNeedle
  | _ => false

def isBelow (a b : Value) : Bool := a.compare? b == some .lt

def isAbove (a b : Value) : Bool := a.compare? b == some .gt

def isAtMost (a b : Value) : Bool := a.compare? b == some .lt || a.compare? b == some .eq

def isAtLeast (a b : Value) : Bool := a.compare? b == some .gt || a.compare? b == some .eq

/-- Whether a predicate holds of a value. An operand of the wrong shape never matches. -/
def leafMatches (value : Value) (op : FilterOp) : Operand → Bool
  | .value operand =>
    match op with
    | .eq => value.same operand
    | .ne => !value.same operand
    | .lt => isBelow value operand
    | .lte => isAtMost value operand
    | .gt => isAbove value operand
    | .gte => isAtLeast value operand
    | op =>
      match value.str?, operand.str? with
      | some text, some needle => textMatches op text.toList needle.toList
      | _, _ => false
  | .values operands =>
    match op with
    | .isIn => operands.any fun operand => operand.same value
    | .notIn => !operands.any fun operand => operand.same value
    | _ => false
  | .range low high => op == .range && isAtLeast value low && isAtMost value high
  | .flag flag => op == .isNull && value.isNull == flag

mutual

/-- Whether a filter holds of a record of a model; an absent field is null. -/
def holds (related : RelatedRecords) (model : String) (record : Record) : Filter → Bool
  | .leaf field op operand => leafMatches ((record.get? field).getD .null) op operand
  | .related relation target filter =>
    (related model record relation).any fun other => holds related target other filter
  | .all filters => allHold related model record filters
  | .any filters => anyHolds related model record filters
  | .not filter => !holds related model record filter

def allHold (related : RelatedRecords) (model : String) (record : Record) : List Filter → Bool
  | [] => true
  | filter :: filters =>
    holds related model record filter && allHold related model record filters

def anyHolds (related : RelatedRecords) (model : String) (record : Record) : List Filter → Bool
  | [] => false
  | filter :: filters =>
    holds related model record filter || anyHolds related model record filters

end

end Filter

end ModelSurface
