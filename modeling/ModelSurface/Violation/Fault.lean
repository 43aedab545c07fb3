import ModelSurface.Scalar.Coercion
import ModelSurface.Scalar.Identity

/-!
What can be wrong with a request, and the words in which callers are told.
-/

namespace ModelSurface

inductive FilterFault where
  | object
  | list
  | negation
  | unknownField (filter : String)
  | operators
  | operator (name : String)
  | nullOperand
  | operand (fault : CoercionFault)
  | flag
  | values
  | range

def FilterFault.message : FilterFault → String
  | .object => "expected a filter object"
  | .list => "expected a list of filters"
  | .negation => "`not` takes exactly one filter"
  | .unknownField filter => s!"unknown filter field on {filter}"
  | .operators => "expected an operator object"
  | .operator name => s!"operator `{name}` is not available for this field"
  | .nullOperand => "null is not a comparison value; use is_null"
  | .operand fault => fault.message
  | .flag => "expected a boolean"
  | .values => "expected a list of values"
  | .range => "expected a [low, high] pair"

inductive ArgumentFault where
  | object
  | unknown
  | required
  | list
  | count
  | zeroSize
  | cursor
  | cursorText
  | exclusive
  | orderField
  | orderDirection (word : String)
  | orderName
  | unsortable (field : String)
  | policy
  | parameters
  | value (fault : CoercionFault)

def ArgumentFault.message : ArgumentFault → String
  | .object => "arguments must be an object"
  | .unknown => "unknown argument"
  | .required => "argument is required"
  | .list => "expected a list"
  | .count => "expected a non-negative integer"
  | .zeroSize => "must be positive"
  | .cursor => "invalid cursor"
  | .cursorText => "expected a cursor string"
  | .exclusive => "`after` and `offset` are exclusive"
  | .orderField => "missing `field`"
  | .orderDirection word => s!"unknown direction `{word}`"
  | .orderName => "expected a field name"
  | .unsortable field => s!"cannot order by `{field}`"
  | .policy => "expected all_or_nothing or best_effort"
  | .parameters => "expected an argument object"
  | .value fault => fault.message

inductive CallFault where
  | unknownModel (model : String)
  | unknownOperation (operation : String)
  | unknownRelationship
  | unknownMethod (model method : String)
  | isQuery (operation : String)
  | isMutation (operation : String)

def CallFault.message : CallFault → String
  | .unknownModel model => s!"unknown model `{model}`"
  | .unknownOperation operation => s!"unknown operation `{operation}`"
  | .unknownRelationship => "unknown relationship"
  | .unknownMethod model method => s!"{model} has no exposed method `{method}`"
  | .isQuery operation => s!"`{operation}` is a query"
  | .isMutation operation => s!"`{operation}` is a mutation"

inductive InputFault where
  | object
  | required
  | assigned
  | unknown
  | enclosing
  | null
  | value (fault : CoercionFault)
  | list
  | nullItem
  | labelText
  | labelPlace
  | labelTwice (label : String)
  | labelUnknown (label : String)
  | labelModel (label found expected : String)
  | referenceMembers

def InputFault.message : InputFault → String
  | .object => "expected an input object"
  | .required => "field is required"
  | .assigned => "field is assigned by the server"
  | .unknown => "unknown field"
  | .enclosing => "field is set by the enclosing object"
  | .null => "field cannot be null"
  | .value fault => fault.message
  | .list => "expected a list"
  | .nullItem => "list items must not be null"
  | .labelText => "label must be a string"
  | .labelPlace => "only created objects can be labelled"
  | .labelTwice label => s!"label `{label}` is used twice"
  | .labelUnknown label => s!"unknown reference `{label}`"
  | .labelModel label found expected => s!"`{label}` labels a {found}, expected a {expected}"
  | .referenceMembers => "a reference cannot carry other fields"

inductive LinkFault where
  | missing (model : String) (id : Identity)
  /-- A one-to-one target belongs to another record. -/
  | taken (value : Value) (holder : String)

def LinkFault.message : LinkFault → String
  | .missing model id => s!"no {model} with identity {id.text}"
  | .taken value holder => s!"{value.text} is already linked to another {holder}"

inductive AssignmentFault where
  | unknownField
  | identity
  | null
  | kind (kind : Kind)
deriving DecidableEq, Repr

def AssignmentFault.message : AssignmentFault → String
  | .unknownField => "unknown field"
  | .identity => "identity cannot change"
  | .null => "field cannot be null"
  | .kind expected => s!"expected {expected.name}"

end ModelSurface
