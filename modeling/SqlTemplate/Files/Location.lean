/-!
# Locations of files

Paths of files as texts with slashes between their parts: the directory that a file is in, and
paths taken from there.
-/

namespace SqlTemplate.Location

/-- Whether a path starts at the root. -/
def isAbsolute (path : String) : Bool :=
  path.toList.head? = some '/'

/-- A reversed path without the slashes, and the parts for the same directory, at its end. The
slash of the root stays. -/
def dropEnd : List Char → List Char
  | ['/'] => ['/']
  | '/' :: rest => dropEnd rest
  | '.' :: '/' :: rest => dropEnd ('/' :: rest)
  | path => path

/-- The directory of a file: its path without the last part. It is empty where the path has one
part. -/
def directory (path : String) : String :=
  .ofList (dropEnd (path.toList.reverse.dropWhile (· != '/'))).reverse

/-- A path taken from a directory. -/
def join (directory path : String) : String :=
  if isAbsolute path ∨ directory.isEmpty then path
  else if directory.toList.getLast? = some '/' then directory ++ path
  else directory ++ "/" ++ path

end SqlTemplate.Location
