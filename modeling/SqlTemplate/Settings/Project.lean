import SqlTemplate.Files.Basic
import SqlTemplate.Files.Location
import SqlTemplate.Settings.Basic

/-!
# Projects

A project is a settings file with the documents that it lists. The settings file is given, or
looked for in the working directory and then in the user's directory. Documents that are listed by
relative paths are found from the directory of the settings file.
-/

namespace SqlTemplate

variable {m : Type → Type} [Monad m]

/-- The name of a settings file. -/
def settingsName : String := "dynsql.toml"

namespace Settings

/-- Settings in a file of some directory, whose documents are found from there. -/
def anchor (s : Settings) (directory : String) : Settings :=
  { s with mappers := s.mappers.map (Location.join directory) }

/-- The settings in a file. -/
def ofFile (files : Files m) (path : String) : ExceptT Failure m Settings := do
  let text ← files.text path
  match parse text with
  | .ok settings => return settings.anchor (Location.directory path)
  | .error _ => throw (.config (.settingsFile path))

/-- Where a settings file is looked for, in order. -/
def searchPaths (userDirectory : Option String) : List String :=
  settingsName ::
    (userDirectory.map fun d => Location.join (Location.join d "dynsql") settingsName).toList

/-- The first of some paths that leads to a file. -/
def firstFile? (files : Files m) : List String → m (Option String)
  | [] => return none
  | path :: rest => do
    if ← files.isFile path then return some path else firstFile? files rest

/-- The settings in the first settings file that is found, or else the default settings. -/
def discover (files : Files m) : ExceptT Failure m Settings := do
  let found : m (Option String) := firstFile? files (searchPaths files.userDirectory)
  match ← found with
  | some path => ofFile files path
  | none => return {}

end Settings

namespace Draft

/-- Loads the document in a file into a draft. -/
def loadFile (files : Files m) (d : Draft) (path : String) : m (Except Failure Nat × Draft) := do
  match ← files.read path with
  | .ok source => return d.load source path
  | .error fault => return (.error (.file fault), d)

/-- Loads the documents in files into a draft, up to the first that fails. -/
def loadFiles (files : Files m) (d : Draft) : List String → ExceptT Failure m Draft
  | [] => return d
  | path :: rest => do
    let loaded : m (Except Failure Nat × Draft) := loadFile files d path
    match ← loaded with
    | (.ok _, d) => loadFiles files d rest
    | (.error failure, _) => throw failure

end Draft

/-- The catalog of the documents that settings list. -/
def Catalog.ofSettings (files : Files m) (s : Settings) : ExceptT Failure m Catalog := do
  let d ← Draft.loadFiles files (Draft.ofSettings s) s.mappers
  match d.build with
  | .ok catalog => return catalog
  | .error failure => throw failure

end SqlTemplate
