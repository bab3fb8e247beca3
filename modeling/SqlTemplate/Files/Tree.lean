import SqlTemplate.Entries
import SqlTemplate.Files.Basic
import SqlTemplate.Files.Location
import SqlTemplate.Text.Parts

/-!
# Trees of files

A file system held as a value: a tree of directories with texts at its leaves. A path is walked
part by part from the root or from a working directory. Two points lead back to the directory
before, and every part but the last has to be a directory. Paths and their parts have a greatest
length in bytes.
-/

namespace SqlTemplate

/-- A file with its text, or a directory. -/
inductive FileTree where
  | file (text : String)
  | directory (entries : List (String × FileTree))

namespace FileTree

/-- The parts of a path. A slash at the end asks for a directory, as a point would. -/
def parts (path : String) : List String :=
  let parts := ((path.toList.splitOn '/').filter (!·.isEmpty)).map String.ofList
  if path.toList.getLast? = some '/' then parts ++ ["."] else parts

/-- A directory's tree with a file put in under its parts, among directories made for it. -/
def insert (text : String) : List String → FileTree → FileTree
  | [], _ => .file text
  | part :: rest, tree =>
    let entries := match tree with
      | .directory entries => entries
      | .file _ => []
    .directory (Entries.insert entries part
      (insert text rest ((Entries.find? entries part).getD (.directory []))))

/-- A directory's tree with a directory under its parts, among directories made for it. What is
there already stays as it is. -/
def makeDirectory : List String → FileTree → FileTree
  | part :: rest, .directory entries =>
    .directory (Entries.insert entries part
      (makeDirectory rest ((Entries.find? entries part).getD (.directory []))))
  | _, tree => tree

/-- The tree of files given with their paths. -/
def ofFiles (files : List (String × String)) : FileTree :=
  files.foldl (fun tree file => tree.insert file.2 ((parts file.1).filter (· != ".")))
    (.directory [])

/-- The greatest number of bytes in a path. -/
def pathLimit : Nat := 4095

/-- The greatest number of bytes in a part of a path. -/
def partLimit : Nat := 255

/-- Follows the parts of a path from a directory, whose own directories come with it, the nearest
first. -/
def walk (above : List FileTree) (tree : FileTree) : List String → Except FileFault FileTree
  | [] => .ok tree
  | part :: rest =>
    match tree with
    | .file _ => .error .notADirectory
    | .directory entries =>
      if part = "." then walk above tree rest
      else if part = ".." then
        match above with
        | [] => walk [] tree rest
        | parent :: above => walk above parent rest
      else if partLimit < Text.byteLength part.toList then .error .nameTooLong
      else match Entries.find? entries part with
        | some next => walk (tree :: above) next rest
        | none => .error .notFound

/-- What a path leads to, from the root or from a working directory. -/
def find (root : FileTree) (working path : String) : Except FileFault FileTree :=
  if path.isEmpty then .error .notFound
  else if path.toList.contains '\x00' then .error .nulInPath
  else if pathLimit < Text.byteLength path.toList then .error .nameTooLong
  else if Location.isAbsolute path then walk [] root (parts path)
  else walk [] root (parts working ++ parts path)

/-- The file system that a tree is, seen from a working directory. -/
def files (root : FileTree) (working : String) (userDirectory : Option String) : Files Id where
  read path :=
    match root.find working path with
    | .ok (.file text) => .ok text
    | .ok (.directory _) => .error .isADirectory
    | .error fault => .error fault
  isFile path :=
    match root.find working path with
    | .ok (.file _) => true
    | _ => false
  userDirectory

end FileTree

end SqlTemplate
