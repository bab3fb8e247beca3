import SqlTemplate.Failure

/-!
# Files

What the library asks of a file system. All that reads files is written for any such system, be it
that of the machine or a tree of files held as a value.
-/

namespace SqlTemplate

/-- A file system, as far as it is asked for anything. -/
structure Files (m : Type → Type) where
  /-- The text of the file at a path. -/
  read : String → m (Except FileFault String)
  /-- Whether a path leads to a file that is no directory. -/
  isFile : String → m Bool
  /-- The directory in which programs look for the user's settings. -/
  userDirectory : Option String := none

/-- The text of the file at a path. -/
def Files.text {m : Type → Type} [Monad m] (files : Files m) (path : String) :
    ExceptT Failure m String := do
  match ← files.read path with
  | .ok text => return text
  | .error fault => throw (.file fault)

end SqlTemplate
