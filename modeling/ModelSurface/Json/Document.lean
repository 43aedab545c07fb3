import ModelSurface.Json.Token

/-!
JSON documents as they stand in a text. A text with a fault still gives a document, which breaks
off where the fault is: a reader that walks a document in order meets the first problem first,
whether it is one of form or of content.
-/

namespace ModelSurface.Json

/-- How an array or object ends: with its bracket, or with a fault in place of it. The fault may
come behind a comma. -/
inductive Ending where
  | closed
  | cut (fault : Fault)
  | cutBehindComma (fault : Fault)
deriving DecidableEq, Repr

/-- A document. The members of an object are in the order of the text and may repeat a name. -/
inductive Document where
  | null
  | bool (value : Bool)
  | num (value : Number)
  | str (value : String)
  | arr (items : List Document) (ending : Ending)
  | obj (members : List (String × Document)) (ending : Ending)
  | broken (fault : Fault)
deriving Repr

instance : Inhabited Document := ⟨.null⟩

def Ending.fault? : Ending → Option Fault
  | .closed => none
  | .cut fault => some fault
  | .cutBehindComma fault => some fault

/-- Arrays and objects nested deeper than this are refused. -/
def depthLimit : Nat := 127

/-- An array or object that is still open, its parts last one first. -/
inductive Frame where
  | arr (items : List Document)
  | obj (members : List (String × Document)) (name : String)

inductive Expect where
  | value
  | firstItem
  | firstName
  | name (members : List (String × Document))
  | colon (members : List (String × Document)) (name : String)
  | after (value : Document)

namespace Document

def closeAll (value : Document) : List Frame → Document
  | [] => value
  | .arr items :: frames => closeAll (.arr (value :: items).reverse .closed) frames
  | .obj members name :: frames =>
    closeAll (.obj ((name, value) :: members).reverse .closed) frames

def breakOff (fault : Fault) (frames : List Frame) : Expect → Document
  | .value => closeAll (.broken fault) frames
  | .firstItem =>
    match fault, frames with
    | .unfinished, .arr items :: frames => closeAll (.arr items.reverse (.cut fault)) frames
    | fault, frames => closeAll (.broken fault) frames
  | .firstName => closeAll (.obj [] (.cut fault)) frames
  | .name members => closeAll (.obj members.reverse (.cutBehindComma fault)) frames
  | .colon members name =>
    closeAll (.obj ((name, .broken fault) :: members).reverse .closed) frames
  | .after value =>
    match frames with
    | [] => value
    | .arr items :: frames => closeAll (.arr (value :: items).reverse (.cut fault)) frames
    | .obj members name :: frames =>
      closeAll (.obj ((name, value) :: members).reverse (.cut fault)) frames

/-- What a token does to the frames and the expectation, or the finished document; the flag of
a finished document tells that something follows it. -/
abbrev Step := Except (Document × Bool) (List Frame × Expect)

def onValue (frames : List Frame) (expect : Expect) : Token → Step
  | .null => .ok (frames, .after .null)
  | .bool b => .ok (frames, .after (.bool b))
  | .num n => .ok (frames, .after (.num n))
  | .str s => .ok (frames, .after (.str s))
  | .openArr =>
    if frames.length < depthLimit then .ok (.arr [] :: frames, .firstItem)
    else .error (closeAll (.broken .malformed) frames, false)
  | .openObj =>
    if frames.length < depthLimit then .ok (frames, .firstName)
    else .error (closeAll (.broken .malformed) frames, false)
  | .broken fault => .error (closeAll (.broken fault) frames, false)
  | .brokenStr fault => .error (closeAll (.broken fault) frames, false)
  | _ => .error (breakOff .malformed frames expect, false)

def onName (frames : List Frame) (expect : Expect) (members : List (String × Document)) :
    Token → Step
  | .str name => .ok (frames, .colon members name)
  | .brokenStr fault => .error (breakOff fault frames expect, false)
  | _ => .error (breakOff .malformed frames expect, false)

def step (frames : List Frame) (expect : Expect) (token : Token) : Step :=
  match expect with
  | .value => onValue frames .value token
  | .firstItem =>
    match frames, token with
    | .arr items :: rest, .closeArr => .ok (rest, .after (.arr items.reverse .closed))
    | frames, token => onValue frames .value token
  | .firstName =>
    match token with
    | .closeObj => .ok (frames, .after (.obj [] .closed))
    | token => onName frames .firstName [] token
  | .name members => onName frames (.name members) members token
  | .colon members name =>
    match token with
    | .colon => .ok (.obj members name :: frames, .value)
    | _ => .error (breakOff .malformed frames (.colon members name), false)
  | .after value =>
    match frames, token with
    | [], _ => .error (value, true)
    | .arr items :: rest, .comma => .ok (.arr (value :: items) :: rest, .value)
    | .arr items :: rest, .closeArr => .ok (rest, .after (.arr (value :: items).reverse .closed))
    | .obj members name :: rest, .comma => .ok (rest, .name ((name, value) :: members))
    | .obj members name :: rest, .closeObj =>
      .ok (rest, .after (.obj ((name, value) :: members).reverse .closed))
    | frames, _ => .error (breakOff .malformed frames (.after value), false)

/-- Reads a document off its tokens; the flag tells whether something follows it. -/
def build (frames : List Frame) (expect : Expect) : List Token → Document × Bool
  | [] => (breakOff .unfinished frames expect, false)
  | token :: rest =>
    match step frames expect token with
    | .ok (frames, expect) => build frames expect rest
    | .error result => result

def ofText (text : String) : Document × Bool := build [] .value (tokens text)

mutual

/-- The value of a document that does not break off; of two members with one name the later one
stays. -/
def toJson : Document → Except Fault Json
  | .null => .ok .null
  | .bool b => .ok (.bool b)
  | .num n => .ok (.num n)
  | .str s => .ok (.str s)
  | .arr items ending => do
    let values ← itemsToJson items
    match ending.fault? with
    | some fault => .error fault
    | none => .ok (.arr values)
  | .obj members ending => do
    let values ← membersToJson members
    match ending.fault? with
    | some fault => .error fault
    | none => .ok (Json.object values)
  | .broken fault => .error fault

def itemsToJson : List Document → Except Fault (List Json)
  | [] => .ok []
  | item :: items => do
    let value ← item.toJson
    let values ← itemsToJson items
    .ok (value :: values)

def membersToJson : List (String × Document) → Except Fault (List (String × Json))
  | [] => .ok []
  | (name, item) :: members => do
    let value ← item.toJson
    let values ← membersToJson members
    .ok ((name, value) :: values)

end

end Document

def ofText (text : String) : Except Fault Json := do
  let (document, more) := Document.ofText text
  let json ← document.toJson
  if more then .error .malformed else .ok json

end ModelSurface.Json
