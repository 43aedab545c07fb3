import ModelSurface.Registry.Reader

/-!
Putting registry documents together. Models follow each other in the order of the documents; any
document may give options, but all that do must agree.
-/

namespace ModelSurface

inductive MergeFault where
  | document (origin : String) (fault : Json.DocumentFault)
  | options (origin : String)
deriving DecidableEq, Repr

def MergeFault.message : MergeFault → String
  | .document origin (.form .unfinished) =>
    s!"invalid registry document {origin}: it ends too early"
  | .document origin (.form .malformed) =>
    s!"invalid registry document {origin}: it is not JSON"
  | .document origin (.content fault) => s!"invalid registry document {origin}: {fault.message}"
  | .options origin => s!"{origin} declares options that differ from an earlier document"

namespace Registry

def declaresOptions (text : String) : Bool :=
  match Json.ofText text with
  | .ok json => (json.get? "options").isSome
  | .error _ => false

def mergeOnto (models : List ModelDef) (options : Option Options) :
    List (String × String) → Except MergeFault Registry
  | [] => .ok { options := options.getD {}, models := models }
  | (origin, text) :: documents =>
    match Registry.ofText text with
    | .error fault => .error (.document origin fault)
    | .ok registry =>
      let models := models ++ registry.models
      if declaresOptions text then
        match options with
        | some seen =>
          if seen = registry.options then mergeOnto models options documents
          else .error (.options origin)
        | none => mergeOnto models (some registry.options) documents
      else mergeOnto models options documents

def merge (documents : List (String × String)) : Except MergeFault Registry :=
  mergeOnto [] none documents

end Registry

end ModelSurface
