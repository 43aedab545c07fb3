import ModelSurface.Render.DocComment
import ModelSurface.Render.File

/-!
The items of generated bindings, and their code: structures for records and inputs, enumerations
for the fields by which records are sorted.
-/

namespace ModelSurface

/-- An identifier of the generated bindings. A name that is a keyword is marked as a plain
identifier; a few words cannot even be marked, and get an underscore instead. -/
structure Identifier where
  text : String
  /-- Whether the text needs the mark that keeps it from being read as a keyword. -/
  raw : Bool := false
deriving DecidableEq, Repr, Inhabited

namespace Identifier

def keywords : List String :=
  ["as", "break", "const", "continue", "else", "enum", "extern", "false", "fn", "for", "if", "impl",
    "in", "let", "loop", "match", "mod", "move", "mut", "pub", "ref", "return", "static", "struct",
    "trait", "true", "type", "unsafe", "use", "where", "while", "async", "await", "dyn", "abstract",
    "become", "box", "do", "final", "macro", "override", "priv", "typeof", "unsized", "virtual",
    "yield", "try", "gen"]

/-- The words that are keywords even when they are marked. -/
def pathWords : List String := ["crate", "self", "Self", "super"]

def ofName (name : String) : Identifier :=
  if pathWords.contains name then { text := name ++ "_" }
  else { text := name, raw := keywords.contains name }

def code (identifier : Identifier) : String :=
  if identifier.raw then "r#" ++ identifier.text else identifier.text

/-- The name that an identifier stands for, when its text is another one. -/
def rename? (identifier : Identifier) (name : String) : Option String :=
  if identifier.text == name then none else some name

end Identifier

inductive BindingType where
  | named (path : String)
  | list (item : BindingType)
  | optional (type : BindingType)
deriving DecidableEq, Repr, Inhabited

namespace BindingType

def code : BindingType → String
  | .named path => path
  | .list item => s!"Vec<{item.code}>"
  | .optional type => s!"Option<{type.code}>"

end BindingType

def renameLines (rename : Option String) : List String :=
  match rename with
  | some name => ["#[serde(rename = \"" ++ name ++ "\")]"]
  | none => []

structure BindingField where
  identifier : Identifier
  type : BindingType
  rename : Option String
  /-- Whether the field is left out when it has no value. -/
  skipped : Bool := false
  doc : Option String := none
deriving DecidableEq, Repr, Inhabited

namespace BindingField

def ofName (name : String) (type : BindingType) (doc : Option String := none)
    (skipped : Bool := false) : BindingField :=
  let identifier := Identifier.ofName name
  ⟨identifier, type, identifier.rename? name, skipped, doc⟩

def lines (field : BindingField) : List String :=
  field.doc.toList.map DocComment.text ++ renameLines field.rename ++
    (if field.skipped then
      ["#[serde(default, skip_serializing_if = \"Option::is_none\")]"]
    else []) ++
    [s!"pub {field.identifier.code}: {field.type.code},"]

end BindingField

structure BindingVariant where
  name : String
  rename : String
deriving DecidableEq, Repr, Inhabited

namespace BindingVariant

def lines (variant : BindingVariant) : List String :=
  renameLines (some variant.rename) ++ [s!"{variant.name},"]

end BindingVariant

def itemLines (head : String) (body : List String) : List String :=
  if body.isEmpty then [head ++ " \x7b\x7d"]
  else (head ++ " \x7b") :: body.map ("    " ++ ·) ++ ["\x7d"]

def deriveLine (traits : List String) : String := "#[derive(" ++ ", ".intercalate traits ++ ")]"

structure BindingStruct where
  name : String
  traits : List String
  fields : List BindingField
  doc : Option String := none
deriving DecidableEq, Repr, Inhabited

namespace BindingStruct

def lines (item : BindingStruct) : List String :=
  item.doc.toList.map DocComment.text ++ deriveLine item.traits ::
    itemLines s!"pub struct {item.name}" (item.fields.flatMap BindingField.lines)

end BindingStruct

structure BindingEnum where
  name : String
  traits : List String
  variants : List BindingVariant
  doc : Option String := none
deriving DecidableEq, Repr, Inhabited

namespace BindingEnum

def lines (item : BindingEnum) : List String :=
  item.doc.toList.map DocComment.text ++ deriveLine item.traits ::
    itemLines s!"pub enum {item.name}" (item.variants.flatMap BindingVariant.lines)

end BindingEnum

end ModelSurface
