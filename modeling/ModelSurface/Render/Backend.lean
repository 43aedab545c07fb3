import ModelSurface.Render.SchemaBindings
import ModelSurface.Render.SchemaText
import ModelSurface.Text.Lowercase

/-!
Backends: the forms in which a schema is written out.
-/

namespace ModelSurface

inductive Backend where
  /-- One document in the schema definition language. -/
  | document
  /-- Structures for clients written in Rust. -/
  | bindings
deriving DecidableEq, Repr, Inhabited

structure UnknownBackend where
  name : String
deriving DecidableEq, Repr

def UnknownBackend.message (fault : UnknownBackend) : String := s!"unknown backend: {fault.name}"

namespace Backend

def name : Backend → String
  | .document => "sdl"
  | .bindings => "rust"

def extension : Backend → String
  | .document => "graphql"
  | .bindings => "rs"

def ofName (word : String) : Except UnknownBackend Backend :=
  let name := String.ofList (Text.lowercase word.toList)
  if name = "sdl" ∨ name = "graphql" then .ok .document
  else if name = "rust" ∨ name = "rs" then .ok .bindings
  else .error ⟨name⟩

def render (schema : Schema) : Backend → List GeneratedFile
  | .document => [⟨"schema.graphql", schema.document.text⟩]
  | .bindings => schema.bindingFiles

end Backend

end ModelSurface
