import SqlTemplate.CommandLine.Run

/-!
# The program

The command line over the files, the environment and the output of the machine. Everything that is
decided is decided in `SqlTemplate.CommandLine`.
-/

namespace SqlTemplate.Main

/-- Why the machine could not read a file. The number of an error may come with its sign changed. -/
def fileFault : IO.Error → FileFault
  | .noFileOrDirectory .. => .notFound
  | .inappropriateType _ code _ =>
    if code = 20 ∨ code = -20 then .notADirectory else .isADirectory
  | .invalidArgument _ code reason =>
    if code = 36 ∨ code = -36 then .nameTooLong else .other reason
  | .permissionDenied .. => .notPermitted
  | error => .other (toString error)

/-- The directory of the user's settings. -/
def userDirectory : IO (Option String) := do
  match (← IO.getEnv "XDG_CONFIG_HOME").filter Location.isAbsolute with
  | some directory => return some directory
  | none => return (← IO.getEnv "HOME").map (Location.join · ".config")

/-- The text of a file of the machine. -/
def readText (path : String) : IO (Except FileFault String) := do
  if path.toList.contains '\x00' then return .error .nulInPath
  match ← (IO.FS.readBinFile path).toBaseIO with
  | .ok bytes =>
    match String.fromUTF8? bytes with
    | some text => return .ok text
    | none => return .error (.other "stream did not contain valid UTF-8")
  | .error error => return .error (fileFault error)

/-- The files of the machine. A file that cannot be read is a file nevertheless. -/
def files (userDirectory : Option String) : Files IO where
  read := readText
  isFile path := do
    match ← readText path with
    | .ok _ | .error .notPermitted | .error (.other _) => return true
    | .error _ => return false
  userDirectory

/-- How the program is used. -/
def usage : String :=
  Report.lines [
    "Render dynamic SQL mapper statements",
    "",
    "Usage: dynsql [OPTIONS] <COMMAND>",
    "",
    "Commands:",
    "  render  Render a statement's SQL and parameter bindings",
    "  list    List registered statements",
    "  check   Load mapper documents and report compile errors",
    "  help    Print this message or the help of the given subcommand(s)",
    "",
    "Options:",
    "  -c, --config <CONFIG>            Settings file",
    "  -m, --mapper <MAPPERS>           Mapper documents to load",
    "      --database-id <DATABASE_ID>  Active dialect",
    "  -v, --verbose                    Verbose logging",
    "  -h, --help                       Print help",
    "  -V, --version                    Print version"]

end SqlTemplate.Main

open SqlTemplate

/-- Runs the program with its arguments; the result is the exit code. -/
def main (arguments : List String) : IO UInt32 := do
  let environment : CommandLine.Environment :=
    { config := ← IO.getEnv "DYNSQL_CONFIG", dialect := ← IO.getEnv "DYNSQL_DATABASE_ID" }
  let files := Main.files (← Main.userDirectory)
  let outcome ← CommandLine.run files environment arguments
  match outcome with
  | .done output => IO.print output
  | .failed output complaint =>
    IO.print output
    IO.eprintln ("Error: " ++ complaint.message)
  | .help => IO.print Main.usage
  | .misused => IO.eprint Main.usage
  | .aborted => IO.eprintln "A property is cut within a character"
  return outcome.code.toUInt32
