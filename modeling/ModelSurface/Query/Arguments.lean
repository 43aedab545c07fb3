import ModelSurface.Filter.Reader
import ModelSurface.Query.Order
import ModelSurface.Surface.Schema
import ModelSurface.Text.Base62

/-!
The arguments of queries: which records, in which order, and how many of them.
-/

namespace ModelSurface

namespace Arguments

/-- The members of an arguments document, and what is wrong with it as a whole. Null stands for no
arguments. -/
def members (known : List String) : Json → List (String × Json) × List Violation
  | .null => ([], [])
  | .obj members =>
    (members, ((members.map (·.1)).filter fun name => !known.contains name).map
      (.ofField · (.argument .unknown)))
  | _ => ([], [.ofCause (.argument .object)])

/-- An argument that is given and not null. -/
def given? (members : List (String × Json)) (name : String) : Option Json :=
  (members.lookup name).filter fun json => !json.isNull

def optional {α : Type} (members : List (String × Json)) (name : String)
    (read : Json → Checked α) : Checked (Option α) :=
  match given? members name with
  | none => .ok none
  | some json => (read json).map some

def count (name : String) (json : Json) : Checked Nat :=
  match json.nat64? with
  | some n => .ok n
  | none => Checked.fault name (.argument .count)

end Arguments

namespace OrderKey

def read : Json → Except ArgumentFault OrderKey
  | .str spec =>
    match spec.toList with
    | '-' :: field => .ok ⟨String.ofList field, .descending⟩
    | _ => .ok ⟨spec, .ascending⟩
  | .obj members =>
    match (members.lookup "field").bind Json.str? with
    | none => .error .orderField
    | some field =>
      match (members.lookup "direction").bind Json.str? with
      | none => .ok ⟨field, .ascending⟩
      | some word =>
        if word = "ASC" ∨ word = "asc" then .ok ⟨field, .ascending⟩
        else if word = "DESC" ∨ word = "desc" then .ok ⟨field, .descending⟩
        else .error (.orderDirection word)
  | _ => .error .orderName

def ofJson (sortable : List String) (path : String) (json : Json) : Checked OrderKey :=
  match read json with
  | .error fault => Checked.fault path (.argument fault)
  | .ok key =>
    if sortable.contains key.field then .ok key
    else Checked.fault path (.argument (.unsortable key.field))

def listOfJson (sortable : List String) (index : Nat) : List Json → Checked (List OrderKey)
  | [] => .ok []
  | item :: items =>
    Checked.both List.cons (ofJson sortable s!"order_by[{index}]" item)
      (listOfJson sortable (index + 1) items)

def keysOfJson (sortable : List String) : Json → Checked (List OrderKey)
  | .arr items => listOfJson sortable 0 items
  | json => listOfJson sortable 0 [json]

end OrderKey

structure ListArgs where
  filter : Option Filter := none
  orderBy : List OrderKey := []
  limit : Option Nat := none
  /-- How many records are left out at the front. -/
  offset : Nat := 0
deriving Inhabited

namespace ListArgs

def ofJson (schema : Schema) (model : Model) (json : Json) : Checked ListArgs :=
  let (members, violations) := Arguments.members ["filter", "order_by", "limit", "offset"] json
  let filter := Arguments.optional members "filter" (Filter.ofJson (schema.filter model))
  let orderBy := Arguments.optional members "order_by" (OrderKey.keysOfJson model.sortableFields)
  let limit := Arguments.optional members "limit" (Arguments.count "limit")
  let offset := Arguments.optional members "offset" (Arguments.count "offset")
  match violations ++ filter.violations ++ orderBy.violations ++ limit.violations ++
      offset.violations, filter, orderBy, limit, offset with
  | [], .ok filter, .ok orderBy, .ok limit, .ok offset =>
    .ok ⟨filter, orderBy.getD [], limit, offset.getD 0⟩
  | violations, _, _, _, _ => .error violations

end ListArgs

structure PageArgs where
  filter : Option Filter := none
  orderBy : List OrderKey := []
  pageSize : Option Nat := none
  offset : Nat := 0
deriving Inhabited

namespace PageArgs

/-- The position behind the record that a cursor names. -/
def after : Json → Checked Nat
  | .str cursor =>
    match Text.Base62.decode? cursor with
    | none => Checked.fault "after" (.argument .cursor)
    | some position =>
      if position + 1 < Nat.pow 2 64 then .ok (position + 1)
      else Checked.fault "after" (.argument .cursor)
  | _ => Checked.fault "after" (.argument .cursorText)

/-- What is wrong with arguments that are right by themselves. -/
def jointViolations (pageSize after offset : Checked (Option Nat)) : List Violation :=
  (match after, offset with
    | .ok (some _), .ok (some _) => [.ofField "after" (.argument .exclusive)]
    | _, _ => []) ++
  (match pageSize with
    | .ok (some 0) => [.ofField "page_size" (.argument .zeroSize)]
    | _ => [])

def ofJson (schema : Schema) (model : Model) (json : Json) : Checked PageArgs :=
  let (members, violations) :=
    Arguments.members ["filter", "order_by", "page_size", "after", "offset"] json
  let filter := Arguments.optional members "filter" (Filter.ofJson (schema.filter model))
  let orderBy := Arguments.optional members "order_by" (OrderKey.keysOfJson model.sortableFields)
  let pageSize := Arguments.optional members "page_size" (Arguments.count "page_size")
  let offset := Arguments.optional members "offset" (Arguments.count "offset")
  let after := Arguments.optional members "after" after
  match violations ++ filter.violations ++ orderBy.violations ++ pageSize.violations ++
      offset.violations ++ after.violations ++ jointViolations pageSize after offset,
      filter, orderBy, pageSize, offset, after with
  | [], .ok filter, .ok orderBy, .ok pageSize, .ok offset, .ok after =>
    .ok ⟨filter, orderBy.getD [], pageSize, (after.or offset).getD 0⟩
  | violations, _, _, _, _, _ => .error violations

/-- The size of the page that the caller gets: at least one record, at most what the options
allow. -/
def effectiveSize (args : PageArgs) (options : Options) : Nat :=
  max (min (args.pageSize.getD options.defaultPageSize) options.maxPageSize) 1

end PageArgs

end ModelSurface
