import SqlTemplate.CommandLine.Arguments
import SqlTemplate.CommandLine.Report
import SqlTemplate.Json.Reader
import SqlTemplate.Settings.Project

/-!
# Running the program

The program over any file system: it reads settings and documents as its arguments say, and what
comes of it is printed text, a complaint, or both.
-/

namespace SqlTemplate.CommandLine

variable {m : Type → Type} [Monad m]

/-- Why a task could not be done. -/
inductive Complaint where
  | failure (cause : Failure)
  | settings (path : String) (cause : Failure)
  | noDocuments
  | parameterFile (path : String) (fault : FileFault)
  | invalidParameter
  | faults (count : Nat)
  deriving DecidableEq, Repr

/-- A failure with what caused it. -/
def causes : Failure → String
  | .file fault => Failure.message (.file fault) ++ ": " ++ fault.message
  | failure => failure.message

/-- The wording of a complaint. -/
def Complaint.message : Complaint → String
  | .failure cause => causes cause
  | .settings path cause => "reading " ++ path ++ ": " ++ causes cause
  | .noDocuments =>
    "No mapper documents. Use --mapper or list them under \x60mappers\x60 in " ++ settingsName
  | .parameterFile path fault => "reading " ++ path ++ ": " ++ fault.message
  | .invalidParameter => "parameters are not valid JSON"
  | .faults count => toString count ++ " error(s)"

/-- What comes of a run. -/
inductive Outcome where
  | done (output : String)
  | failed (output : String) (complaint : Complaint)
  /-- The usage is asked for. -/
  | help
  /-- The arguments are not understood. -/
  | misused
  /-- The run broke off at a property that cannot be read. -/
  | aborted
  deriving DecidableEq, Repr

/-- The exit code of a run. -/
def Outcome.code : Outcome → Nat
  | .done _ | .help => 0
  | .failed .. => 1
  | .misused => 2
  | .aborted => 101

/-- The program's name and version. -/
def version : String := "dynsql 0.3.0"

/-- The settings that arguments lead to, with what they say themselves. -/
def settings (files : Files m) (a : Arguments) : ExceptT Complaint m Settings := do
  let found : m (Except Complaint Settings) := match a.config with
    | some path => (·.mapError (.settings path)) <$> (Settings.ofFile files path).run
    | none => (·.mapError .failure) <$> (Settings.discover files).run
  let s ← ExceptT.mk found
  return { s with
    mappers := s.mappers ++ a.mappers
    dialect := a.dialect.or s.dialect }

/-- The catalog of the documents that arguments and settings list. -/
def catalog (files : Files m) (a : Arguments) : ExceptT Complaint m Catalog := do
  let s ← settings files a
  if s.mappers.isEmpty then throw .noDocuments
  ExceptT.mk ((·.mapError .failure) <$> (Catalog.ofSettings files s).run)

/-- The parameter of a statement. -/
def parameter (files : Files m) : ParameterSource → ExceptT Complaint m Value
  | .absent => return .null
  | .inline json => ofJson json
  | .file path => do
    match ← files.read path with
    | .ok json => ofJson json
    | .error fault => throw (.parameterFile path fault)
where
  ofJson (json : String) : ExceptT Complaint m Value :=
    match Json.parse? json with
    | some value => return value
    | none => throw .invalidParameter

/-- A statement of a catalog, rendered for a parameter, if the values of its properties can be
read. -/
def rendered (c : Catalog) (id : String) (parameter : Value) (format : Format) :
    Except Failure (Option String) := do
  let statement ← c.statement id
  let bound ← statement.bind c.engine parameter c.dialect
  return (bound.values? c.engine.access).map fun values =>
    match format with
    | .text => Report.renderedText statement bound values
    | .json => Report.renderedJson statement bound values

/-- Loads documents one after another, with a line for each of them, and counts those that
failed. -/
def checkAll (files : Files m) (d : Draft) : List String → m ((List String × Nat) × Draft)
  | [] => return (([], 0), d)
  | path :: rest => do
    let (result, d) ← Draft.loadFile files d path
    let ((lines, count), d) ← checkAll files d rest
    return ((Report.checked path result :: lines, if result.isOk then count else count + 1), d)

/-- Checks documents: the output, and the number of faults. -/
def check (files : Files m) (s : Settings) (paths : List String) : m (String × Nat) := do
  let ((lines, count), d) ← checkAll files (Draft.ofSettings s) paths
  let built := d.build
  return (Report.lines (lines ++ Report.completed built),
    if built.isOk then count else count + 1)

/-- The outcome of something that gives an output or a complaint. -/
def Outcome.ofResult : Except Complaint String → Outcome
  | .ok output => .done output
  | .error complaint => .failed "" complaint

/-- Does what arguments ask for. -/
def perform (files : Files m) (a : Arguments) : m Outcome :=
  match a.task with
  | .render id source format => do
    let result : ExceptT Complaint m (Option String) := do
      let c ← catalog files a
      let p ← parameter files source
      match rendered c id p format with
      | .ok output => return output
      | .error failure => throw (.failure failure)
    match ← result.run with
    | .ok (some output) => return .done output
    | .ok none => return .aborted
    | .error complaint => return .failed "" complaint
  | .list => do
    let result := (fun c => Report.listing c.listing) <$> catalog files a
    return .ofResult (← result.run)
  | .check paths => do
    match ← (settings files a).run with
    | .error complaint => return .failed "" complaint
    | .ok s =>
      let (output, count) ← check files s paths
      return if count = 0 then .done output else .failed output (.faults count)

/-- A run of the program with its arguments in an environment. -/
def run (files : Files m) (environment : Environment) (arguments : List String) : m Outcome :=
  match Arguments.parse environment arguments with
  | .ok a => perform files a
  | .error .help => return .help
  | .error .version => return .done (Report.lines [version])
  | .error .misuse => return .misused

end SqlTemplate.CommandLine
