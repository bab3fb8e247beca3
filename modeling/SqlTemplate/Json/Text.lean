import SqlTemplate.Decimal.Shortest
import SqlTemplate.Json.Value

/-!
# The text of values

Values as JSON text: compact, with neither spaces nor line breaks, or laid out over lines with an
indent of two spaces. Fields are written in the order of their keys.
-/

namespace SqlTemplate

/-- Numbers from `10 ^ -5` on and below `10 ^ 16` are written without an exponent. -/
def Number.style : Decimal.Style := ⟨16, -5⟩

/-- The text of a number. -/
def Number.text : Number → String
  | .int n => toString n
  | .float x => Decimal.text style x

namespace Json

/-- A control character without a short escape: four hexadecimal digits. -/
def codeEscape (c : Char) : List Char :=
  let digits := Nat.toDigits 16 c.toNat
  ['\\', 'u'] ++ List.replicate (4 - digits.length) '0' ++ digits

/-- A character inside quotes. -/
def escaped (c : Char) : List Char :=
  match c with
  | '"' => ['\\', '"']
  | '\\' => ['\\', '\\']
  | '\n' => ['\\', 'n']
  | '\r' => ['\\', 'r']
  | '\t' => ['\\', 't']
  | '\x08' => ['\\', 'b']
  | '\x0c' => ['\\', 'f']
  | c => if c.toNat < 32 then codeEscape c else [c]

/-- A string in quotes. -/
def quoted (s : String) : String :=
  .ofList ('"' :: s.toList.flatMap escaped ++ ['"'])

mutual

/-- The compact text of a value. -/
def compact : Value → String
  | .null => "null"
  | .bool b => if b then "true" else "false"
  | .number n => n.text
  | .string s => quoted s
  | .array items => "[" ++ ",".intercalate (compactItems items) ++ "]"
  | .object fields => "\x7b" ++ ",".intercalate (compactFields fields) ++ "\x7d"

/-- The compact texts of a list's items. -/
def compactItems : List Value → List String
  | [] => []
  | v :: rest => compact v :: compactItems rest

/-- The compact texts of a map's entries. -/
def compactFields : List (String × Value) → List String
  | [] => []
  | (k, v) :: rest => (quoted k ++ ":" ++ compact v) :: compactFields rest

end

/-- Lines of a container's parts between its brackets, one level in. -/
private def laidOut (indent opening closing : String) (parts : List String) : String :=
  if parts.isEmpty then opening ++ closing
  else
    let inner := "\n" ++ indent ++ "  "
    opening ++ inner ++ ("," ++ inner).intercalate parts ++ "\n" ++ indent ++ closing

mutual

/-- The text of a value laid out over lines, of which all but the first begin with `indent`. -/
def pretty (indent : String) : Value → String
  | .array items => laidOut indent "[" "]" (prettyItems (indent ++ "  ") items)
  | .object fields => laidOut indent "\x7b" "\x7d" (prettyFields (indent ++ "  ") fields)
  | v => compact v

/-- The laid-out texts of a list's items. -/
def prettyItems (indent : String) : List Value → List String
  | [] => []
  | v :: rest => pretty indent v :: prettyItems indent rest

/-- The laid-out texts of a map's entries. -/
def prettyFields (indent : String) : List (String × Value) → List String
  | [] => []
  | (k, v) :: rest => (quoted k ++ ": " ++ pretty indent v) :: prettyFields indent rest

end

end Json

/-- A value as it joins other text: a string as it is, any other value as compact JSON. -/
def Value.text : Value → String
  | .string s => s
  | v => Json.compact v

end SqlTemplate
