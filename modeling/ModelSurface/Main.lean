import ModelSurface.CommandLine.Command
import ModelSurface.CommandLine.FileTree

/-!
The command line program.
-/

open ModelSurface ModelSurface.CommandLine

def readText? (path : String) : IO (Option String) := do
  try
    return some (← IO.FS.readFile path)
  catch _ =>
    return none

def makeDirectory (path : String) : IO Unit := do
  try
    IO.FS.createDir path
  catch
    | .alreadyExists .. => pure ()
    | fault => throw fault

def writeFiles (directory : String) (files : List GeneratedFile) : IO Bool := do
  try
    for path in Path.leading directory do
      makeDirectory path
    for file in files do
      IO.FS.writeFile (Path.entry directory file.name) file.content
    return true
  catch _ =>
    return false

def perform (outcome : Outcome) : IO UInt32 := do
  match outcome with
  | .misused fault => IO.eprintln s!"error: {fault.message}"
  | .failed fault => IO.eprintln s!"Error: {fault.message}"
  | .help => pure ()
  | .shown generation =>
    for issue in generation.issues do
      IO.eprintln issue.message
  | .written generation directory =>
    for issue in generation.issues do
      IO.eprintln issue.message
    unless ← writeFiles directory generation.files do
      IO.eprintln s!"Error: {(RunFault.unwritable directory).message}"
      return 1
    IO.eprintln (generation.summary directory)
  IO.print outcome.text
  return outcome.exitCode.toUInt32

def main (words : List String) : IO UInt32 := do
  let mut texts : List (String × String) := []
  for path in inputs words do
    if let some text ← readText? path then
      texts := (path, text) :: texts
  perform (Outcome.ofWords (texts.lookup ·) words)
