import SqlTemplate.Failure
import SqlTemplate.Json.Value
import SqlTemplate.Text.LetterCase
import SqlTemplate.Text.Numeral
import SqlTemplate.Text.Parts

/-!
# Parameter mappings

The body of a placeholder names a property of the parameter, optionally with a type after a colon,
and sets attributes after commas. A mapping holds what the body says; a later attribute replaces
an earlier one of its name.
-/

namespace SqlTemplate

open Text

/-- The direction of a bound parameter. -/
inductive ParameterMode where
  | input
  | output
  | both
  deriving DecidableEq, Repr

/-- The name of a mode. -/
def ParameterMode.name : ParameterMode → String
  | .input => "IN"
  | .output => "OUT"
  | .both => "INOUT"

/-- The mode of a name in letters of either case. -/
def ParameterMode.ofName? (name : String) : Option ParameterMode :=
  match mapChars asciiUpper name with
  | "IN" => some .input
  | "OUT" => some .output
  | "INOUT" => some .both
  | _ => none

/-- What one placeholder binds. -/
structure Mapping where
  property : String
  jdbcType : Option String := none
  javaType : Option String := none
  mode : ParameterMode := .input
  numericScale : Option Nat := none
  typeHandler : Option String := none
  deriving DecidableEq, Repr

/-- The names of types whose values are bound as a whole. -/
def simpleTypes : List String :=
  ["string", "int", "integer", "long", "short", "byte", "float", "double", "boolean", "char",
    "character", "bigdecimal", "biginteger", "decimal", "date", "uuid"]

/-- Whether a type hint names a simple type: in letters of either case, with the package of the
basic types or an underscore in front. -/
def isSimpleType (hint : String) : Bool :=
  let name := hint.toList
  let name := (after? "java.lang.".toList name).getD name
  let name := (after? "_".toList name).getD name
  simpleTypes.contains (.ofList (asciiLower name))

namespace Mapping

/-- The property and the type that the first part of a body names. -/
def head (part : List Char) : String × Option String :=
  let part := trim part
  match cutAtChar? ':' part with
  | some (property, type) => (.ofList (trim property), some (.ofList (trim type)))
  | none => (.ofList part, none)

/-- The mapping with one attribute set. -/
def setAttribute (m : Mapping) (name value : String) : Except MappingFault Mapping :=
  match name with
  | "jdbcType" => .ok { m with jdbcType := some value }
  | "javaType" => .ok { m with javaType := some value }
  | "mode" =>
    match ParameterMode.ofName? value with
    | some mode => .ok { m with mode }
    | none => .error (.unknownMode (mapChars asciiUpper value))
  | "numericScale" =>
    match word32? value.toList with
    | some scale => .ok { m with numericScale := some scale }
    | none => .error (.scale value)
  | "typeHandler" => .ok { m with typeHandler := some value }
  | "resultMap" | "jdbcTypeName" => .ok m
  | other => .error (.unknownAttribute other)

/-- The mapping with the attribute set that a part of a body names. -/
def setPart (m : Mapping) (part : List Char) : Except MappingFault Mapping :=
  match cutAtChar? '=' part with
  | some (name, value) => m.setAttribute (.ofList (trim name)) (.ofList (trim value))
  | none => .error (.notAnAssignment (.ofList (trim part)))

/-- The mapping that a list of parts says, without a type hint. -/
def ofParts : List (List Char) → Except MappingFault Mapping
  | [] => .error .missingProperty
  | first :: rest =>
    let (property, jdbcType) := head first
    if property.isEmpty then .error .missingProperty
    else rest.foldlM setPart { property, jdbcType }

/-- The mapping with a simple type hint where no type was named. -/
def withHint (m : Mapping) (hint : Option String) : Mapping :=
  match m.javaType with
  | some _ => m
  | none => { m with javaType := hint.filter isSimpleType }

/-- The mapping that the body of a placeholder says. -/
def parse (content : String) (hint : Option String) : Except Failure Mapping :=
  match ofParts (content.toList.splitOn ',') with
  | .ok m => .ok (m.withHint hint)
  | .error fault => .error (.mapping content fault)

/-- A mapping as a value; attributes that are not set are left out. -/
def toValue (m : Mapping) : Value :=
  let field (name : String) (value : Option Value) := value.toList.map fun v => (name, v)
  .ofFields <|
    [("property", .string m.property), ("mode", .string m.mode.name)] ++
      field "jdbcType" (m.jdbcType.map .string) ++
      field "javaType" (m.javaType.map .string) ++
      field "numericScale" (m.numericScale.map .ofNat) ++
      field "typeHandler" (m.typeHandler.map .string)

end Mapping

end SqlTemplate
