import ModelSurface.Registry.Definition
import ModelSurface.Scalar.Coercion

/-!
What is wrong with a single model, method or relationship. The rest of the registry is built
without it.
-/

namespace ModelSurface

inductive IdentityFault where
  | notMarked
  | repeated
  | kind
  | shape
  | assignment
  | relationship
deriving DecidableEq, Repr

def IdentityFault.message : IdentityFault → String
  | .notMarked => "field `id` exists but is not marked as identity"
  | .repeated => "more than one identity field"
  | .kind => "identity must be an integer or uuid"
  | .shape => "identity cannot be nullable, list-valued or defaulted"
  | .assignment => "identity must be assigned once, on create"
  | .relationship => "a relationship uses the identity name"

def Generator.title : Generator → String
  | .now => "Now"
  | .today => "Today"
  | .uuid => "Uuid"
  | .sequence => "Sequence"

inductive DefaultFault where
  | computedList (generator : Generator)
  | computedKind (generator : Generator) (kind : Kind)
  | value (fault : CoercionFault)
  | null

def DefaultFault.message : DefaultFault → String
  | .computedList g => s!"`{g.title}` cannot fill a list-valued field"
  | .computedKind g kind => s!"`{g.title}` cannot produce a {kind.name} value"
  | .value fault => fault.message
  | .null => "null default on a non-nullable field"

inductive SignatureFault where
  | name (name : String)
  | paramName (param : String)
  | variadic (param : String)
  | untyped (param : String)
  | shadowsIdentity (param : String)
  | repeated (param : String)
deriving DecidableEq, Repr

def SignatureFault.message : SignatureFault → String
  | .name word => s!"`{word}` is not a valid name"
  | .paramName param => s!"parameter `{param}` is not a valid name"
  | .variadic param => s!"parameter `{param}` is variadic"
  | .untyped param => s!"parameter `{param}` is untyped"
  | .shadowsIdentity param => s!"parameter `{param}` shadows the identity argument"
  | .repeated param => s!"parameter `{param}` is declared twice"

inductive Issue where
  | invalidName (model name : String)
  | duplicateMember (model name : String)
  | unknownBase (model base : String)
  | inheritanceCycle (model through : String)
  | invalidIdentity (model field : String) (fault : IdentityFault)
  | invalidDefault (model field : String) (fault : DefaultFault)
  /-- The method is left out. -/
  | unsupportedMethod (model method : String) (fault : SignatureFault)
  /-- The target is missing, broken or abstract; the relationship is left out. -/
  | unknownTarget (model relation target : String)
  /-- The name of the other side is taken; the other side is left out. -/
  | reverseClash (model relation target name : String)

namespace Issue

def message : Issue → String
  | .invalidName model name => s!"{model}: `{name}` is not a valid name"
  | .duplicateMember model name => s!"{model}: duplicate member `{name}`"
  | .unknownBase model base => s!"{model}: unknown base model `{base}`"
  | .inheritanceCycle model through => s!"{model}: inheritance cycle through `{through}`"
  | .invalidIdentity model field fault =>
    s!"{model}: invalid identity field `{field}`: {fault.message}"
  | .invalidDefault model field fault => s!"{model}.{field}: invalid default: {fault.message}"
  | .unsupportedMethod model method fault =>
    s!"{model}.{method}: unsupported method signature: {fault.message}"
  | .unknownTarget model relation target =>
    s!"{model}.{relation}: unknown relationship target `{target}`"
  | .reverseClash model relation target name =>
    s!"{target}.{name}: reverse of {model}.{relation} clashes with an existing member"

end Issue

end ModelSurface
