/-! Paths of files, as texts with slashes. -/
namespace SnippetKernel.Path

/-- The path of `name` in `directory`. -/
def join (directory name : String) : String :=
  if directory.isEmpty ∨ directory.endsWith "/" then directory ++ name else directory ++ "/" ++ name

/-- The components that are not empty. -/
def components (path : String) : List String :=
  ((path.splitOn "/").filter (!·.isEmpty))

/-- The last component. -/
def name (path : String) : String := (components path).getLast?.getD ""

/-- The directory in which the last component is. -/
def parent (path : String) : String :=
  let isRoot := path.startsWith "/"
  (if isRoot then "/" else "") ++ "/".intercalate (components path).dropLast

/-- The path lies in the directory, or is it. -/
def isWithin (path directory : String) : Bool :=
  (components directory).isPrefixOf (components path)

end SnippetKernel.Path
