import ModelSurface.Scalar.Value

/-!
Reading JSON values as values of a declared kind.
-/

namespace ModelSurface

inductive CoercionFault where
  | shape (kind : Kind) (found : String)
  | listShape (kind : Kind) (found : String)
  | nullItem (index : Nat)
  | item (index : Nat) (fault : CoercionFault)
  | date (text : String) (fault : Calendar.Fault)
  | time (text : String) (fault : Calendar.Fault)
  | datetime (text : String) (fault : Calendar.Fault)
  | decimal (text : String) (fault : Decimal.Fault)
  | uuid (text : String) (fault : Uuid.Fault)
  | duration (seconds : String)
  | nullIdentity
  | notIdentity (kind : Kind)
deriving DecidableEq, Repr

def CoercionFault.message : CoercionFault → String
  | .shape kind found => s!"expected {kind.name}, got {found}"
  | .listShape kind found => s!"expected a list of {kind.name}, got {found}"
  | .nullItem index => s!"list item {index} must not be null"
  | .item index fault => s!"list item {index}: {fault.message}"
  | .date text fault => s!"invalid date `{text}`: {fault.message}"
  | .time text fault => s!"invalid time `{text}`: {fault.message}"
  | .datetime text fault => s!"invalid datetime `{text}`: {fault.message}"
  | .decimal text fault => s!"invalid decimal `{text}`: {fault.message}"
  | .uuid text fault => s!"invalid uuid `{text}`: {fault.message}"
  | .duration seconds => s!"duration of {seconds} seconds is out of range"
  | .nullIdentity => "identity must not be null"
  | .notIdentity kind => s!"{kind.name} cannot be an identity"

namespace Value

def ofJsonText (kind : Kind) (json : Json) (read : String → Except CoercionFault Value) :
    Except CoercionFault Value :=
  match json with
  | .str s => read s
  | json => .error (.shape kind json.typeName)

def ofDecimalText (text : String) : Except CoercionFault Value :=
  match Decimal.ofText text with
  | .ok d => .ok (.decimal d)
  | .error fault => .error (.decimal text fault)

/-- A number of seconds: an integer of 64 bits, or any other number. -/
def ofSeconds (n : Number) : Except CoercionFault Value :=
  match n.int64? with
  | some seconds =>
    match Duration.ofSeconds? seconds with
    | some d => .ok (.duration d)
    | none => .error (.duration (toString seconds))
  | none =>
    match Duration.ofBinary64? n.toBinary64 with
    | some d => .ok (.duration d)
    | none => .error (.duration n.toBinary64.plainText)

def scalarOfJson (kind : Kind) (json : Json) : Except CoercionFault Value :=
  let fault : CoercionFault := .shape kind json.typeName
  match kind with
  | .string => ofJsonText kind json fun s => .ok (.str s)
  | .integer =>
    match json.int64? with
    | some i => .ok (.int i)
    | none => .error fault
  | .float =>
    match json.binary64? with
    | some x => .ok (.float x)
    | none => .error fault
  | .boolean =>
    match json.bool? with
    | some b => .ok (.bool b)
    | none => .error fault
  | .date => ofJsonText kind json fun s =>
    match Date.ofText s with
    | .ok d => .ok (.date d)
    | .error fault => .error (.date s fault)
  | .time => ofJsonText kind json fun s =>
    match Time.ofText s with
    | .ok t => .ok (.time t)
    | .error fault => .error (.time s fault)
  | .datetime => ofJsonText kind json fun s =>
    match Instant.ofText s with
    | .ok t => .ok (.instant t)
    | .error fault => .error (.datetime s fault)
  | .decimal =>
    match json with
    | .str s => ofDecimalText s
    | .num n => ofDecimalText n.text
    | _ => .error fault
  | .uuid => ofJsonText kind json fun s =>
    match Uuid.ofText s with
    | .ok u => .ok (.uuid u)
    | .error fault => .error (.uuid s fault)
  | .duration =>
    match json with
    | .num n => ofSeconds n
    | _ => .error fault
  | .json => .ok (.json json)

def itemsOfJson (kind : Kind) (index : Nat) : List Json → Except CoercionFault (List Value)
  | [] => .ok []
  | item :: items =>
    if item.isNull then .error (.nullItem index)
    else
      match scalarOfJson kind item with
      | .error fault => .error (.item index fault)
      | .ok value => do
        let values ← itemsOfJson kind (index + 1) items
        .ok (value :: values)

/-- Reads a value of a kind, or a list of such values. Null is read as null; whether it may stand
there is for the caller to say. -/
def ofJson (kind : Kind) (list : Bool) (json : Json) : Except CoercionFault Value :=
  if json.isNull then .ok .null
  else if !list then scalarOfJson kind json
  else
    match json with
    | .arr items => (itemsOfJson kind 0 items).map .list
    | json => .error (.listShape kind json.typeName)

end Value

end ModelSurface
