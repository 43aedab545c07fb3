/-!
The files that rendering a schema produces.
-/

namespace ModelSurface

structure GeneratedFile where
  /-- The path within the directory that the files are written to. -/
  name : String
  content : String
deriving DecidableEq, Repr, Inhabited

def textOfLines (lines : List String) : String :=
  String.join (lines.map fun line => line ++ "\n")

end ModelSurface
