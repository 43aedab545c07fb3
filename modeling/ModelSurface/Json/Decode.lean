import ModelSurface.Json.Document
import ModelSurface.Text.Quoted

/-!
Typed reading of documents. A document is read in its own order, so of several problems the first
one is reported.
-/

namespace ModelSurface.Json

/-- What a document holds in a place where something else is expected. -/
inductive Found where
  | null
  | bool (value : Bool)
  | int (value : Int)
  | float (value : Binary64)
  | str (value : String)
  | seq
  | map
  /-- A name alone where a name with content is expected. -/
  | unitVariant
deriving DecidableEq, Repr

def Found.text : Found → String
  | .null => "null"
  | .bool b => s!"boolean `{b}`"
  | .int i => s!"integer `{i}`"
  | .float x => s!"floating point `{x.text}`"
  | .str s => s!"string {Text.quoted s}"
  | .seq => "sequence"
  | .map => "map"
  | .unitVariant => "unit variant"

inductive ContentFault where
  | type (found : Found) (expected : String)
  | value (found : Found) (expected : String)
  | length (found : Nat) (expected : String)
  | unknownField (name : String) (known : List String)
  | duplicateField (name : String)
  | missingField (name : String)
  | unknownVariant (name : String) (known : List String)
deriving DecidableEq, Repr

def alternatives (names : List String) : String :=
  match names.map fun name => s!"`{name}`" with
  | [a, b] => s!"expected {a} or {b}"
  | [a] => s!"expected {a}"
  | quoted => "expected one of " ++ ", ".intercalate quoted

def ContentFault.message : ContentFault → String
  | .type found expected => s!"invalid type: {found.text}, expected {expected}"
  | .value found expected => s!"invalid value: {found.text}, expected {expected}"
  | .length found expected => s!"invalid length {found}, expected {expected}"
  | .unknownField name known => s!"unknown field `{name}`, {alternatives known}"
  | .duplicateField name => s!"duplicate field `{name}`"
  | .missingField name => s!"missing field `{name}`"
  | .unknownVariant name known => s!"unknown variant `{name}`, {alternatives known}"

inductive DocumentFault where
  | form (fault : Fault)
  | content (fault : ContentFault)
deriving DecidableEq, Repr

abbrev Decoded (α : Type) := Except DocumentFault α

namespace Document

def refuse {α : Type} (document : Document) (expected : String) : Decoded α :=
  let content (found : Found) : Decoded α := .error (.content (.type found expected))
  match document with
  | .null => content .null
  | .bool b => content (.bool b)
  | .num (.int i) => content (.int i)
  | .num (.float x) => content (.float x)
  | .str s => content (.str s)
  | .arr _ _ => content .seq
  | .obj _ _ => content .map
  | .broken fault => .error (.form fault)

def string : Document → Decoded String
  | .str s => .ok s
  | document => document.refuse "a string"

def boolean : Document → Decoded Bool
  | .bool b => .ok b
  | document => document.refuse "a boolean"

def natural : Document → Decoded Nat
  | .num (.int i) =>
    if i < 0 then .error (.content (.value (.int i) "usize")) else .ok i.toNat
  | document => document.refuse "usize"

def nullable {α : Type} (read : Document → Decoded α) : Document → Decoded (Option α)
  | .null => .ok none
  | document => (read document).map some

def jsonOrNull : Document → Decoded (Option Json)
  | .null => .ok none
  | document =>
    match document.toJson with
    | .ok json => .ok (some json)
    | .error fault => .error (.form fault)

def itemsOf {α : Type} (read : Document → Decoded α) : List Document → Decoded (List α)
  | [] => .ok []
  | item :: items => do
    let value ← read item
    let values ← itemsOf read items
    .ok (value :: values)

def list {α : Type} (read : Document → Decoded α) : Document → Decoded (List α)
  | .arr items ending => do
    let values ← itemsOf read items
    match ending.fault? with
    | some fault => .error (.form fault)
    | none => .ok values
  | document => document.refuse "a sequence"

end Document

/-- A field of a structure: its name, whether it must be there, and how it is read into the
structure. -/
structure FieldShape (α : Type) where
  name : String
  required : Bool
  read : α → Document → Decoded α

/-- A structure, written as an object with its fields as members or as an array of its fields in
order. Fields that may be missing keep the value they have in `default`. -/
structure Shape (α : Type) where
  name : String
  fields : List (FieldShape α)
  default : α

namespace Shape

variable {α : Type}

def fieldNames (shape : Shape α) : List String := shape.fields.map (·.name)

/-- What an array that is too short should have been. -/
def expectation (shape : Shape α) : String :=
  let count := shape.fields.length
  s!"struct {shape.name} with {count} element" ++ (if count = 1 then "" else "s")

def missing? (shape : Shape α) (seen : List String) : Option String :=
  (shape.fields.find? fun field => field.required && !seen.contains field.name).map (·.name)

def ofMembers (shape : Shape α) (ending : Ending) (seen : List String) (value : α) :
    List (String × Document) → Decoded α
  | [] =>
    match ending.fault?, shape.missing? seen with
    | some fault, _ => .error (.form fault)
    | none, some name => .error (.content (.missingField name))
    | none, none => .ok value
  | (name, document) :: members =>
    match shape.fields.find? fun field => field.name == name with
    | none => .error (.content (.unknownField name shape.fieldNames))
    | some field =>
      if seen.contains name then .error (.content (.duplicateField name))
      else do
        let value ← field.read value document
        ofMembers shape ending (name :: seen) value members

def ofItems (shape : Shape α) (ending : Ending) (index : Nat) (value : α) :
    List (FieldShape α) → List Document → Decoded α
  | [], [] =>
    match ending.fault? with
    | some fault => .error (.form fault)
    | none => .ok value
  | [], _ :: _ => .error (.form .malformed)
  | field :: fields, [] =>
    match ending.fault? with
    | some fault => .error (.form fault)
    | none =>
      if field.required then .error (.content (.length index shape.expectation))
      else ofItems shape ending (index + 1) value fields []
  | field :: fields, document :: items => do
    let value ← field.read value document
    ofItems shape ending (index + 1) value fields items

def decode (shape : Shape α) : Document → Decoded α
  | .obj members ending => shape.ofMembers ending [] shape.default members
  | .arr items ending => shape.ofItems ending 0 shape.default shape.fields items
  | document => document.refuse s!"struct {shape.name}"

end Shape

/-- One of several named alternatives; `content` reads what one of them holds besides its name,
which is null for the plain ones. -/
structure Choice (α : Type) where
  known : List String
  ofName? : String → Option (Sum α (Document → Decoded α))

namespace Choice

variable {α : Type}

def plain (known : List String) (ofName? : String → Option α) : Choice α :=
  { known := known, ofName? := fun name => (ofName? name).map .inl }

def unit (value : α) : Document → Decoded α
  | .null => .ok value
  | document => document.refuse "unit"

/-- Reads a name, or an object with the name as its only member. -/
def decode (choice : Choice α) : Document → Decoded α
  | .str name =>
    match choice.ofName? name with
    | some (.inl value) => .ok value
    | some (.inr _) => .error (.content (.type .unitVariant "newtype variant"))
    | none => .error (.content (.unknownVariant name choice.known))
  | .obj ((name, document) :: members) ending =>
    match choice.ofName? name with
    | none => .error (.content (.unknownVariant name choice.known))
    | some variant => do
      let value ← match variant with
        | .inl value => unit value document
        | .inr read => read document
      match members, ending with
      | [], .closed => .ok value
      | [], .cut fault => .error (.form fault)
      | _, _ => .error (.form .malformed)
  | .obj [] ending => .error (.form (ending.fault?.getD .malformed))
  | .broken fault => .error (.form fault)
  | _ => .error (.form .malformed)

end Choice

def decodeText {α : Type} (read : Document → Decoded α) (text : String) : Decoded α := do
  let (document, more) := Document.ofText text
  let value ← read document
  if more then .error (.form .malformed) else .ok value

end ModelSurface.Json
