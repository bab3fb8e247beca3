import SqlTemplate.Catalog.Loading
import SqlTemplate.Toml.Reader

/-!
# Settings

What a settings file says: the dialect, how SQL is written and which documents are to be loaded.
Keys that are not known here are passed over; a known key with a value of another type makes the
whole text invalid.
-/

namespace SqlTemplate

/-- The settings of a catalog. -/
structure Settings extends Options where
  /-- The active dialect. -/
  dialect : Option String := none
  /-- Whether inserts obtain generated keys unless they say otherwise. -/
  generatedKeys : Bool := false
  /-- The documents to be loaded. -/
  mappers : List String := []
  deriving DecidableEq, Repr

namespace PlaceholderStyle

/-- The name of a style. -/
def name : PlaceholderStyle → String
  | .question => "question"
  | .dollar => "dollar"

/-- The style of a name. -/
def ofName? : String → Option PlaceholderStyle
  | "question" => some .question
  | "dollar" => some .dollar
  | _ => none

end PlaceholderStyle

namespace Settings

/-! ## Values of settings -/

/-- A text. -/
def text? : Toml → Option String
  | .string value => some value
  | _ => none

/-- A truth value. -/
def flag? : Toml → Option Bool
  | .boolean value => some value
  | _ => none

/-- A list of texts. -/
def texts? : Toml → Option (List String)
  | .array items => items.mapM text?
  | _ => none

/-- A value that holds nothing. -/
def isEmpty : Toml → Bool
  | .array [] | .table _ [] => true
  | _ => false

/-- A choice: its name as a text, or as the one key of a table with nothing under it. -/
def choice? : Toml → Option String
  | .string name => some name
  | .table _ [(name, content)] => if isEmpty content then some name else none
  | _ => none

/-- The value under a key, read as `read?` says, or `default` where there is none. -/
def field? {α : Type} (fields : Toml.Fields) (key : String) (read? : Toml → Option α)
    (default : α) : Option α :=
  match fields.find? key with
  | some value => read? value
  | none => some default

/-! ## Settings of a text -/

/-- The settings that the fields of a document say. -/
def ofFields? (fields : Toml.Fields) : Option Settings := do
  let dialect ← field? fields "database_id" (fun value => (text? value).map some) none
  let generatedKeys ← field? fields "use_generated_keys" flag? false
  let placeholder ← field? fields "placeholder"
    (fun value => (choice? value).bind PlaceholderStyle.ofName?) .question
  let shrink ← field? fields "shrink_whitespace" flag? false
  let strict ← field? fields "strict_substitution" flag? false
  let mappers ← field? fields "mappers" texts? []
  return { dialect, generatedKeys, placeholder, shrink, strict, mappers }

/-- The settings that a text says. -/
def parse (text : String) : Except Failure Settings :=
  match (Toml.parse? text).bind ofFields? with
  | some settings => .ok settings
  | none => .error (.config .settings)

/-- The engine with the options of settings. -/
def engine (s : Settings) : Engine where
  toOptions := s.toOptions

end Settings

/-- The empty draft with the settings of a catalog. -/
def Draft.ofSettings (s : Settings) : Draft where
  dialect := s.dialect
  generatedKeys := s.generatedKeys
  engine := s.engine

end SqlTemplate
