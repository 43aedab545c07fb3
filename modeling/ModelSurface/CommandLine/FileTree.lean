import ModelSurface.CommandLine.Command

/-!
A tree of directories and files, and what a run of the command makes of it. A path has parts
between slashes. It is followed part by part, and each part but the last has to lead to a
directory; this also holds of the parts `.` and `..`. So `a.json/.` is not a file, and `g/../h`
leads nowhere as long as there is no `g`.
-/

namespace ModelSurface.CommandLine.Path

def isAbsolute (path : String) : Bool := path.startsWith "/"

/-- The parts of a path. An empty part, as at the end of `a/`, stays where it is, but only in a
directory. -/
def parts (path : String) : List String := path.splitOn "/"

def steps (path : String) : List String :=
  (parts path).filter fun part => part != "" && part != "."

/-- The directories that a path leads through, from the first one, and last the path itself. -/
def leading (path : String) : List String :=
  let start := if isAbsolute path then "/" else ""
  let steps := steps path
  let counts := (List.range steps.length).tail
  counts.map (fun n => start ++ "/".intercalate (steps.take n)) ++ [path]

def entry (directory name : String) : String := directory ++ "/" ++ name

end ModelSurface.CommandLine.Path

namespace ModelSurface.CommandLine

/-- The names that lead to a directory or file from the top of the tree. -/
abbrev Place := List String

inductive Node where
  | directory
  | file (text : String)
deriving DecidableEq, Repr, Inhabited

structure FileTree where
  /-- What stands at each place; the top itself is left out. -/
  nodes : List (Place × Node)
  working : Place
deriving DecidableEq, Repr, Inhabited

namespace FileTree

def maxNameSize : Nat := 255

def node? (tree : FileTree) (place : Place) : Option Node :=
  if place.isEmpty then some .directory else tree.nodes.lookup place

def put (tree : FileTree) (place : Place) (node : Node) : FileTree :=
  { tree with nodes := (place, node) :: tree.nodes.filter fun entry => entry.1 != place }

/-- The place to which parts lead. Something has to stand there only if there are parts left, and
above the top there is the top. -/
def follow? (tree : FileTree) (place : Place) : List String → Option Place
  | [] => some place
  | part :: parts =>
    if tree.node? place != some .directory then none
    else if part == "" || part == "." then tree.follow? place parts
    else if part == ".." then tree.follow? place.dropLast parts
    else if part.utf8ByteSize ≤ maxNameSize then tree.follow? (place ++ [part]) parts
    else none

def place? (tree : FileTree) (path : String) : Option Place :=
  tree.follow? (if Path.isAbsolute path then [] else tree.working) (Path.parts path)

def find? (tree : FileTree) (path : String) : Option Node := do tree.node? (← tree.place? path)

def read? (tree : FileTree) (path : String) : Option String :=
  match tree.find? path with
  | some (.file text) => some text
  | _ => none

/-- Writes a file; its directory has to be there. -/
def write? (tree : FileTree) (path text : String) : Option FileTree := do
  let place ← tree.place? path
  if tree.node? place == some .directory then none else some (tree.put place (.file text))

/-- Makes a directory, unless it is there; the one that holds it has to be there. Slashes at the end
of the path count for nothing. -/
def makeDirectory? (tree : FileTree) (path : String) : Option FileTree :=
  if tree.find? path == some .directory then some tree
  else do
    let parts := ((Path.parts path).reverse.dropWhile (· == "")).reverse
    let place ← tree.follow? (if Path.isAbsolute path then [] else tree.working) parts
    if (tree.node? place).isSome then none else some (tree.put place .directory)

def makeDirectories? (tree : FileTree) (path : String) : Option FileTree :=
  (Path.leading path).foldlM makeDirectory? tree

/-- Writes files into a directory, and says whether all of them could be written. The first failure
ends it. -/
def writeEach (tree : FileTree) (directory : String) : List GeneratedFile → FileTree × Bool
  | [] => (tree, true)
  | file :: files =>
    match tree.write? (Path.entry directory file.name) file.content with
    | some tree => tree.writeEach directory files
    | none => (tree, false)

def writeInto (tree : FileTree) (directory : String) (files : List GeneratedFile) :
    FileTree × Bool :=
  match tree.makeDirectories? directory with
  | some tree => tree.writeEach directory files
  | none => (tree, false)

def entries (tree : FileTree) (directory : String) : List (String × String) :=
  match tree.place? directory with
  | none => []
  | some place => tree.nodes.filterMap fun (other, node) =>
    match node, other.getLast? with
    | .file text, some name => if other = place ++ [name] then some (name, text) else none
    | _, _ => none

/-- A file at a path below the working directory, with the directories that lead to it. -/
def putFile (tree : FileTree) (path text : String) : FileTree :=
  let steps := Path.steps path
  let places := (List.range steps.length).tail.map fun n => tree.working ++ steps.take n
  (places.foldl (·.put · .directory) tree).put (tree.working ++ steps) (.file text)

/-- A tree in which the working directory holds nothing. The null device is the one file that each
system has; it reads as an empty text. -/
def empty : FileTree where
  nodes :=
    [(["dev"], .directory), (["dev", "null"], .file ""), (["tmp"], .directory),
      (["tmp", "work"], .directory)]
  working := ["tmp", "work"]

def ofFiles (files : List (String × String)) : FileTree :=
  files.foldl (fun tree (path, text) => tree.putFile path text) empty

end FileTree

def run (tree : FileTree) (words : List String) : Outcome × FileTree :=
  match Outcome.ofWords tree.read? words with
  | .written generation directory =>
    match tree.writeInto directory generation.files with
    | (tree, true) => (.written generation directory, tree)
    | (tree, false) => (.failed (.unwritable directory), tree)
  | outcome => (outcome, tree)

end ModelSurface.CommandLine
