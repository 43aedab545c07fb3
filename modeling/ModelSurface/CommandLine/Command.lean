import ModelSurface.CommandLine.Arguments
import ModelSurface.Registry.Merge
import ModelSurface.Render.Backend

/-!
The command: it merges registry documents and writes out the surface generated from them.
-/

namespace ModelSurface.CommandLine

def helpText : String :=
  textOfLines
    ["Generate a query/mutation schema from model registry documents",
      "",
      "Usage: synapse-schema-gen [OPTIONS] <INPUT>...",
      "",
      "Arguments:",
      "  <INPUT>...  Registry document(s), merged in the given order",
      "",
      "Options:",
      "  -b, --backend <BACKEND>",
      "          Output backend (sdl, rust) [default: sdl]",
      "  -o, --output <OUTPUT>",
      "          Output directory; generated files go to stdout when omitted",
      "      --relation-depth <RELATION_DEPTH>",
      "          Relationship hops a filter may traverse (0 disables relation filters)",
      "      --default-page-size <DEFAULT_PAGE_SIZE>",
      "          Page size used when a paginated query does not ask for one",
      "      --max-page-size <MAX_PAGE_SIZE>",
      "          Upper bound for requested page sizes",
      "  -v, --verbose...",
      "          Increase log verbosity (-v info, -vv debug, -vvv trace)",
      "  -h, --help",
      "          Print help"]

def Arguments.options (arguments : Arguments) (options : Options) : Options where
  relationFilterDepth := arguments.relationDepth.getD options.relationFilterDepth
  defaultPageSize := arguments.defaultPageSize.getD options.defaultPageSize
  maxPageSize := arguments.maxPageSize.getD options.maxPageSize

inductive RunFault where
  | backend (fault : UnknownBackend)
  | unreadable (path : String)
  | merge (fault : MergeFault)
  | conflict (names : NameConflict)
  | unwritable (directory : String)
deriving DecidableEq, Repr

namespace RunFault

def message : RunFault → String
  | .backend fault => fault.message
  | .unreadable path => s!"failed to read {path}"
  | .merge fault => fault.message
  | .conflict names => names.message
  | .unwritable directory => s!"failed to write to {directory}"

end RunFault

structure Generation where
  files : List GeneratedFile
  models : Nat
  issues : List Issue

namespace Generation

/-- Reads the documents in order; `read?` gives the text of a file. -/
def documents (read? : String → Option String) :
    List String → Except RunFault (List (String × String))
  | [] => .ok []
  | path :: paths =>
    match read? path with
    | none => .error (.unreadable path)
    | some text => do .ok ((path, text) :: (← documents read? paths))

def ofArguments (read? : String → Option String) (arguments : Arguments) :
    Except RunFault Generation := do
  let backend ← (Backend.ofName (arguments.backend.getD Backend.document.name)).mapError .backend
  let documents ← documents read? arguments.inputs
  let registry ← (Registry.merge documents).mapError .merge
  let registry := { registry with options := arguments.options registry.options }
  let schema ← registry.schema.mapError .conflict
  .ok ⟨backend.render schema, schema.models.length, schema.issues⟩

/-- The text of the files together. Several files each have a line with their name in front, and an
empty line between them. -/
def text (generation : Generation) : String :=
  match generation.files with
  | [file] => file.content
  | files => "\n".intercalate (files.map fun file => s!"// {file.name}\n{file.content}")

def summary (generation : Generation) (directory : String) : String :=
  s!"Generated {generation.files.length} file(s) for {generation.models} model(s) " ++
    s!"in {directory} ({generation.issues.length} model issue(s) skipped)"

end Generation

inductive Outcome where
  | misused (fault : UsageFault)
  | help
  | failed (fault : RunFault)
  | shown (generation : Generation)
  | written (generation : Generation) (directory : String)

namespace Outcome

def exitCode : Outcome → Nat
  | .misused _ => 2
  | .failed _ => 1
  | _ => 0

def text : Outcome → String
  | .help => helpText
  | .shown generation => generation.text
  | _ => ""

def summary? : Outcome → Option String
  | .written generation directory => some (generation.summary directory)
  | _ => none

/-- What the command comes to for its arguments; `read?` gives the text of a file. -/
def ofWords (read? : String → Option String) (words : List String) : Outcome :=
  match Request.read words with
  | .error fault => .misused fault
  | .ok .help => .help
  | .ok (.generate arguments) =>
    match Generation.ofArguments read? arguments with
    | .error fault => .failed fault
    | .ok generation =>
      match arguments.output with
      | none => .shown generation
      | some directory => .written generation directory

end Outcome

def inputs (words : List String) : List String :=
  match Request.read words with
  | .ok (.generate arguments) => arguments.inputs
  | _ => []

end ModelSurface.CommandLine
