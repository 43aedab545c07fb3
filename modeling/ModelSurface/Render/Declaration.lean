import ModelSurface.Render.File
import ModelSurface.Surface.Types
import ModelSurface.Text.Basic

/-!
The declarations of a schema document, and their text.
-/

namespace ModelSurface

/-- A type as a schema document writes it: a name, a list in brackets, or with a mark, what is never
null. -/
inductive TypeExpr where
  | named (name : String)
  | list (item : TypeExpr)
  | nonNull (type : TypeExpr)
deriving DecidableEq, Repr, Inhabited

namespace TypeExpr

def text : TypeExpr → String
  | .named name => name
  | .list item => s!"[{item.text}]"
  | .nonNull type => s!"{type.text}!"

def base : TypeExpr → String
  | .named name => name
  | .list item => item.base
  | .nonNull type => type.base

/-- A list that is never null, and none of whose items is. -/
def ofItems (name : String) : TypeExpr := .nonNull (.list (.nonNull (.named name)))

end TypeExpr

namespace TypeRef

def expr (type : TypeRef) : TypeExpr :=
  let item : TypeExpr :=
    if type.list then .list (.nonNull (.named type.name)) else .named type.name
  if type.nullable then item else .nonNull item

@[simp] theorem base_expr (type : TypeRef) : type.expr.base = type.name := by
  unfold expr
  cases type.list <;> cases type.nullable <;> rfl

end TypeRef

/-- The text between three quotes on either side; three quotes within it are escaped. -/
def blockString (text : String) : String :=
  let quotes : List Char := ['"', '"', '"']
  String.ofList (quotes ++ Text.replaceAll quotes ('\\' :: quotes) text.toList ++ quotes)

/-- The line in front of what a text describes; an empty text describes nothing. -/
def descriptionLines (indent : String) : Option String → List String
  | some text => if text.isEmpty then [] else [indent ++ blockString text]
  | none => []

/-- A member of a type, or an operation with its arguments. -/
structure Member where
  name : String
  type : TypeExpr
  arguments : List (String × TypeExpr) := []
  default : Option String := none
  description : Option String := none
deriving DecidableEq, Repr, Inhabited

namespace Member

def argumentsText (member : Member) : String :=
  if member.arguments.isEmpty then ""
  else
    let arguments := ", ".intercalate (member.arguments.map fun (name, type) =>
      s!"{name}: {type.text}")
    s!"({arguments})"

def defaultText (member : Member) : String :=
  match member.default with
  | some value => s!" = {value}"
  | none => ""

def lines (member : Member) : List String :=
  descriptionLines "  " member.description ++
    [s!"  {member.name}{member.argumentsText}: {member.type.text}{member.defaultText}"]

def mentions (member : Member) : List String :=
  member.type.base :: member.arguments.map fun (_, type) => type.base

end Member

inductive Declaration where
  | enumeration (name : String) (values : List String)
  | input (name : String) (members : List Member)
  | object (name : String) (description : Option String) (members : List Member)
deriving DecidableEq, Repr, Inhabited

namespace Declaration

def name : Declaration → String
  | .enumeration name _ => name
  | .input name _ => name
  | .object name _ _ => name

def members : Declaration → List Member
  | .enumeration _ _ => []
  | .input _ members => members
  | .object _ _ members => members

def mentions (declaration : Declaration) : List String :=
  declaration.members.flatMap Member.mentions

def lines : Declaration → List String
  | .enumeration name values =>
    s!"enum {name} \x7b" :: values.map (fun value => s!"  {value}") ++ ["\x7d"]
  | .input name members => s!"input {name} \x7b" :: members.flatMap Member.lines ++ ["\x7d"]
  | .object name description members =>
    descriptionLines "" description ++
      s!"type {name} \x7b" :: members.flatMap Member.lines ++ ["\x7d"]

end Declaration

structure SchemaDocument where
  /-- Types whose values have no structure. -/
  scalars : List String
  types : List Declaration
deriving DecidableEq, Repr, Inhabited

namespace SchemaDocument

def declared (document : SchemaDocument) : List String :=
  document.scalars ++ document.types.map Declaration.name

def mentions (document : SchemaDocument) : List String :=
  document.types.flatMap Declaration.mentions

/-- The text of a document: scalars together, an empty line in front of every other type. -/
def text (document : SchemaDocument) : String :=
  textOfLines <|
    ["# @generated", ""] ++ document.scalars.map (fun name => s!"scalar {name}") ++
      document.types.flatMap fun type => "" :: type.lines

end SchemaDocument

end ModelSurface
