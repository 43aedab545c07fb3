import ModelSurface.Model.Basic
import ModelSurface.Naming
import ModelSurface.Scalar.Kind

/-!
The predicates that filters apply to fields, and the types in which filters are written. A filter
follows a bounded number of relationships; a filter that may follow none has scalar fields only.
-/

namespace ModelSurface

inductive FilterOp where
  | eq
  | ne
  | isIn
  | notIn
  | lt
  | lte
  | gt
  | gte
  | range
  | contains
  | icontains
  | startsWith
  | istartsWith
  | endsWith
  | iendsWith
  | iexact
  | isNull
deriving DecidableEq, Repr, Inhabited

namespace FilterOp

def all : List FilterOp :=
  [.eq, .ne, .isIn, .notIn, .lt, .lte, .gt, .gte, .range, .contains, .icontains, .startsWith,
    .istartsWith, .endsWith, .iendsWith, .iexact, .isNull]

theorem mem_all (op : FilterOp) : op ∈ all := by cases op <;> decide

def name : FilterOp → String
  | .eq => "eq"
  | .ne => "ne"
  | .isIn => "in"
  | .notIn => "not_in"
  | .lt => "lt"
  | .lte => "lte"
  | .gt => "gt"
  | .gte => "gte"
  | .range => "range"
  | .contains => "contains"
  | .icontains => "icontains"
  | .startsWith => "starts_with"
  | .istartsWith => "istarts_with"
  | .endsWith => "ends_with"
  | .iendsWith => "iends_with"
  | .iexact => "iexact"
  | .isNull => "is_null"

def ofName? (name : String) : Option FilterOp := all.find? fun op => op.name == name

def isText : FilterOp → Bool
  | .contains | .icontains | .startsWith | .istartsWith | .endsWith | .iendsWith | .iexact => true
  | _ => false

def forField (kind : Kind) (list nullable : Bool) : List FilterOp :=
  [.eq, .ne, .isIn, .notIn] ++
    (if !list && kind.isOrderable then [.lt, .lte, .gt, .gte, .range] else []) ++
    (if !list && kind.isText then all.filter isText else []) ++
    (if nullable then [.isNull] else [])

def typeName (kind : Kind) (list nullable : Bool) : String :=
  (if nullable then "Nullable" else "") ++ kind.typeName ++ (if list then "List" else "") ++
    "Filter"

end FilterOp

/-! ### Types of filters -/

/-- The filter of a model, from which `remaining` of `depth` relationships may still be followed. -/
structure FilterType where
  model : Model
  target? : String → Option Model
  remaining : Nat
  depth : Nat

inductive FilterField where
  | scalar (name : String) (kind : Kind) (list nullable : Bool)
  | relation (name target : String) (many : Bool) (filter : FilterType)

namespace FilterField

def name : FilterField → String
  | .scalar name _ _ _ => name
  | .relation name _ _ _ => name

def ofField (field : Field) : FilterField :=
  .scalar field.name field.kind field.list field.nullable

end FilterField

namespace FilterType

def name (type : FilterType) : String :=
  Naming.filter type.model.name type.remaining type.depth

/-- The filter of a model that nothing led to. -/
def ofModel (target? : String → Option Model) (depth : Nat) (model : Model) : FilterType :=
  ⟨model, target?, depth, depth⟩

def relations (type : FilterType) : List (Relationship × FilterType) :=
  match type.remaining with
  | 0 => []
  | remaining + 1 =>
    type.model.relationships.values.filterMap fun relationship =>
      (type.target? relationship.target).map fun target =>
        (relationship, { type with model := target, remaining := remaining })

def fields (type : FilterType) : List FilterField :=
  type.model.fields.values.map FilterField.ofField ++
    type.relations.map fun (relationship, filter) =>
      .relation relationship.name relationship.target relationship.isMany filter

def field? (type : FilterType) (name : String) : Option FilterField :=
  type.fields.find? fun field => field.name == name

theorem remaining_lt_of_mem_relations {type filter : FilterType} {relationship : Relationship}
    (h : (relationship, filter) ∈ type.relations) : filter.remaining < type.remaining := by
  unfold relations at h
  split at h
  · simp at h
  · next remaining heq =>
    simp only [List.mem_filterMap, Option.map_eq_some_iff, Prod.mk.injEq] at h
    obtain ⟨_, _, _, _, _, rfl⟩ := h
    simp only [heq]
    omega

/-- The filter and those it leads to, each in front of what it leads to itself. -/
def walk (type : FilterType) : List FilterType :=
  type :: type.relations.attach.flatMap fun ⟨(_, filter), h⟩ =>
    have := remaining_lt_of_mem_relations h
    walk filter
termination_by type.remaining

end FilterType

/-- The predicates that fields of one shape share. -/
structure OperatorType where
  kind : Kind
  list : Bool
  nullable : Bool
deriving DecidableEq, Repr

namespace OperatorType

def name (type : OperatorType) : String := FilterOp.typeName type.kind type.list type.nullable

def operators (type : OperatorType) : List FilterOp :=
  FilterOp.forField type.kind type.list type.nullable

def ofField? : FilterField → Option OperatorType
  | .scalar _ kind list nullable => some ⟨kind, list, nullable⟩
  | .relation _ _ _ _ => none

end OperatorType

end ModelSurface
