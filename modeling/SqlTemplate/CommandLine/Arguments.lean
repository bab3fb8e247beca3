import SqlTemplate.Text.Parts

/-!
# Arguments

What the arguments of the program ask for. There are three commands, each with options of its own,
and options that may stand before a command or after it. An option of a command replaces the same
option before the command, and both replace what the environment says.

Arguments are read from left to right. The first that asks for help, or is not understood, decides
the answer.
-/

namespace SqlTemplate.CommandLine

open Text

/-- The forms in which a rendered statement is printed. -/
inductive Format where
  | text
  | json
  deriving DecidableEq, Repr

/-- Where the parameter of a statement comes from. -/
inductive ParameterSource where
  | absent
  | inline (json : String)
  | file (path : String)
  deriving DecidableEq, Repr

/-- What the program is to do. -/
inductive Task where
  | render (statement : String) (parameter : ParameterSource) (format : Format)
  | list
  | check (paths : List String)
  deriving DecidableEq, Repr

/-- A task with the settings that go before those of a file. -/
structure Arguments where
  /-- The settings file. -/
  config : Option String := none
  /-- Documents to be loaded after those of the settings. -/
  mappers : List String := []
  dialect : Option String := none
  task : Task
  deriving DecidableEq, Repr

/-- What the environment says in the place of options. -/
structure Environment where
  config : Option String := none
  dialect : Option String := none
  deriving DecidableEq, Repr

/-- Why arguments ask for no task. -/
inductive Stop where
  | help
  | version
  | misuse
  deriving DecidableEq, Repr

/-! ## Options -/

/-- The options. -/
inductive Opt where
  | config
  | mapper
  | dialect
  | verbose
  | params
  | paramsFile
  | format
  | help
  | version
  deriving DecidableEq, Repr

/-- The places in which options stand: before a command, or after one. -/
inductive Place where
  | front
  | render
  | list
  | check
  deriving DecidableEq, Repr

/-- The place after a command. -/
def Place.ofCommand? : String → Option Place
  | "render" => some .render
  | "list" => some .list
  | "check" => some .check
  | _ => none

namespace Opt

/-- Whether an option may stand in a place. -/
def allowed (place : Place) : Opt → Bool
  | .params | .paramsFile | .format => place = .render
  | .version => place = .front
  | _ => true

/-- Whether an option takes a value. -/
def takesValue : Opt → Bool
  | .verbose | .help | .version => false
  | _ => true

/-- The option of a long name. -/
def ofLong? : String → Option Opt
  | "config" => some .config
  | "mapper" => some .mapper
  | "database-id" => some .dialect
  | "verbose" => some .verbose
  | "params" => some .params
  | "params-file" => some .paramsFile
  | "format" => some .format
  | "help" => some .help
  | "version" => some .version
  | _ => none

/-- The option of a letter. -/
def ofLetter? : Char → Option Opt
  | 'c' => some .config
  | 'm' => some .mapper
  | 'v' => some .verbose
  | 'p' => some .params
  | 'f' => some .format
  | 'h' => some .help
  | 'V' => some .version
  | _ => none

/-- Whether an option takes a certain value. Paths are not empty. -/
def admits (value : String) : Opt → Bool
  | .config | .mapper | .paramsFile => !value.isEmpty
  | .format => value = "text" || value = "json"
  | _ => true

end Opt

/-! ## Reading -/

/-- What is given in one place: options with their values, where flags have an empty one, and
operands. -/
structure Given where
  options : List (Opt × String) := []
  operands : List String := []

namespace Given

/-- The value of an option. -/
def value? (g : Given) (o : Opt) : Option String :=
  g.options.lookup o

/-- The values of an option that may be repeated. -/
def values (g : Given) (o : Opt) : List String :=
  (g.options.filter (·.1 = o)).map (·.2)

/-- One more option with its value. Only documents may be given more than once. -/
def addOption (g : Given) (o : Opt) (value : String) : Except Stop Given :=
  if o = .help then .error .help
  else if o = .version then .error .version
  else if !o.admits value || (o ≠ .mapper && (g.value? o).isSome) then .error .misuse
  else .ok { g with options := g.options ++ [(o, value)] }

/-- One more operand: the one statement to be rendered, or a path to be checked. -/
def addOperand (g : Given) (place : Place) (text : String) : Except Stop Given :=
  let fits := match place with
    | .render => g.operands.isEmpty
    | .check => !text.isEmpty
    | .front | .list => false
  if fits then .ok { g with operands := g.operands ++ [text] } else .error .misuse

/-- Letters behind one dash: flags, and at the end an option whose value follows at once, after an
equals sign or not, or is the next argument. That option is then part of the result. -/
def addLetters (g : Given) (place : Place) : List Char → Except Stop (Given × Option Opt)
  | [] => .ok (g, none)
  | c :: rest =>
    match (Opt.ofLetter? c).filter (Opt.allowed place) with
    | none => .error .misuse
    | some o =>
      if o.takesValue then
        match rest with
        | [] => .ok (g, some o)
        | '=' :: value | value => (g.addOption o (.ofList value)).map fun g => (g, none)
      else
        match g.addOption o "" with
        | .ok g => g.addLetters place rest
        | .error stop => .error stop

/-- A name behind two dashes, with its value after an equals sign, or without one. An option whose
value is the next argument is part of the result. -/
def addName (g : Given) (place : Place) (text : List Char) : Except Stop (Given × Option Opt) :=
  let (name, value) := match cutAtChar? '=' text with
    | some (name, value) => (name, some value)
    | none => (text, none)
  match (Opt.ofLong? (.ofList name)).filter (Opt.allowed place), value with
  | none, _ => .error .misuse
  | some o, some value =>
    if o.takesValue then (g.addOption o (.ofList value)).map fun g => (g, none)
    else .error .misuse
  | some o, none =>
    if o.takesValue then .ok (g, some o) else (g.addOption o "").map fun g => (g, none)

end Given

/-- Whether an argument is an option, or the end of options. A single dash is neither. -/
def isOption (argument : String) : Bool :=
  match argument.toList with
  | '-' :: _ :: _ => true
  | _ => false

/-- The answer to a request for help, on a command or on all of them. -/
def Stop.ofTopics (topics : List String) : Stop :=
  match topics with
  | [] => .help
  | [topic] => if topic = "help" ∨ (Place.ofCommand? topic).isSome then .help else .misuse
  | _ => .misuse

/-- Reads the arguments in one place. In front, the result holds the command that was found and the
arguments after it. -/
def read (place : Place) (g : Given) :
    List String → Except Stop (Given × Option (Place × List String))
  | [] => .ok (g, none)
  | argument :: rest =>
    if argument = "--" then do
      let g ← rest.foldlM (fun g text => g.addOperand place text) g
      return (g, none)
    else if isOption argument then
      let added := match argument.toList with
        | '-' :: '-' :: text => g.addName place text
        | text => g.addLetters place (text.drop 1)
      match added, rest with
      | .error stop, _ => .error stop
      | .ok (g, none), rest => read place g rest
      | .ok (_, some _), [] => .error .misuse
      | .ok (g, some o), value :: rest =>
        if isOption value then .error .misuse
        else match g.addOption o value with
          | .ok g => read place g rest
          | .error stop => .error stop
    else if place = .front then
      if argument = "help" then .error (.ofTopics rest)
      else match Place.ofCommand? argument with
        | some command => .ok (g, some (command, rest))
        | none => .error .misuse
    else
      match g.addOperand place argument with
      | .ok g => read place g rest
      | .error stop => .error stop

/-- Where the parameter comes from, which is said once. -/
def ParameterSource.ofGiven (g : Given) : Except Stop ParameterSource :=
  match g.value? .params, g.value? .paramsFile with
  | none, none => .ok .absent
  | some json, none => .ok (.inline json)
  | none, some path => .ok (.file path)
  | some _, some _ => .error .misuse

/-- The task that is given after a command. -/
def Task.ofGiven (place : Place) (g : Given) : Except Stop Task :=
  match place, g.operands with
  | .render, [statement] =>
    let format := if g.value? .format = some "json" then .json else .text
    (ParameterSource.ofGiven g).map fun parameter => .render statement parameter format
  | .list, _ => .ok .list
  | .check, path :: paths => .ok (.check (path :: paths))
  | _, _ => .error .misuse

/-- What the arguments of the program ask for in an environment. The environment may not name an
empty path where a place goes without the option. -/
def Arguments.parse (environment : Environment) (arguments : List String) :
    Except Stop Arguments := do
  let (front, command) ← read .front {} arguments
  let some (place, rest) := command | throw .misuse
  let (given, _) ← read place {} rest
  let task ← Task.ofGiven place given
  let named := (front.value? .config).isSome && (given.value? .config).isSome
  if environment.config = some "" ∧ !named then throw .misuse
  let mappers := given.values .mapper
  return {
    config := ((given.value? .config).or (front.value? .config)).or environment.config
    mappers := if mappers.isEmpty then front.values .mapper else mappers
    dialect := ((given.value? .dialect).or (front.value? .dialect)).or environment.dialect
    task }

end SqlTemplate.CommandLine
