/-!
# Failures

Everything that can go wrong between the text of a template and a bound statement, as causes. Each
type of causes has one function that words them; positions and offsets count bytes.
-/

namespace SqlTemplate

/-- Operands that an operation of the expression language does not take. Values are named by
their kinds. -/
inductive Mismatch where
  | negation (kind : String)
  | comparison (left right : String)
  | arithmetic (left right : String)
  | listIndex (key : String)
  | indexing (kind : String)
  | undefinedMethod (name kind : String)
  | missingArgument (name : String)
  deriving DecidableEq, Repr

/-- The wording of a mismatch. -/
def Mismatch.message : Mismatch → String
  | .negation kind => s!"cannot negate {kind}"
  | .comparison left right => s!"cannot compare {left} with {right}"
  | .arithmetic left right => s!"arithmetic on {left} and {right}"
  | .listIndex key => s!"list index must be a non-negative integer, found {key}"
  | .indexing kind => s!"cannot index into {kind}"
  | .undefinedMethod name kind => s!"{name}() is not defined for {kind}"
  | .missingArgument name => s!"{name}() expects 1 argument(s)"

/-- Why an expression has no value. -/
inductive ExprFault where
  | expectedExpression (offset : Nat)
  | trailingInput (offset : Nat)
  | unresolved (name : String)
  | nullTarget (name : String)
  | nullCollection
  | notIterable (kind : String)
  | mismatch (cause : Mismatch)
  | divisionByZero
  | unknownMethod (name : String)
  deriving DecidableEq, Repr

/-- The wording of an expression's fault. -/
def ExprFault.message : ExprFault → String
  | .expectedExpression offset => s!"syntax error at offset {offset}: expected an expression"
  | .trailingInput offset => s!"syntax error at offset {offset}: unexpected trailing input"
  | .unresolved name => s!"no binding or attribute named '{name}'"
  | .nullTarget name => s!"cannot read '{name}' of null"
  | .nullCollection => "evaluated to null, expected a collection"
  | .notIterable kind => s!"expected a collection, found {kind}"
  | .mismatch cause => cause.message
  | .divisionByZero => "division by zero"
  | .unknownMethod name => s!"unknown method '{name}'"

/-- Why a text is not well-formed markup. -/
inductive MarkupFault where
  | expectedCharacter
  | expectedName
  | expectedRoot
  | afterRoot
  | closingTag
  | unterminated (closer : String)
  | unterminatedValue
  | unterminatedComment
  | unterminatedData
  | unclosed (tag : String)
  | mismatched (tag found : String)
  deriving DecidableEq, Repr

/-- The wording of a fault of markup. -/
def MarkupFault.message : MarkupFault → String
  | .expectedCharacter => "malformed markup (Char)"
  | .expectedName => "malformed markup (TakeWhile1)"
  | .expectedRoot => "expected a root element"
  | .afterRoot => "unexpected content after the root element"
  | .closingTag => "unexpected closing tag"
  | .unterminated closer => s!"unterminated markup, expected '{closer}'"
  | .unterminatedValue => "unterminated attribute value"
  | .unterminatedComment => "unterminated comment"
  | .unterminatedData => "unterminated CDATA section"
  | .unclosed tag => s!"unclosed element <{tag}>"
  | .mismatched tag found => s!"expected </{tag}>, found </{found}>"

/-- Why the body of a placeholder is no parameter mapping. -/
inductive MappingFault where
  | missingProperty
  | notAnAssignment (part : String)
  | unknownMode (mode : String)
  | scale (value : String)
  | unknownAttribute (name : String)
  deriving DecidableEq, Repr

/-- The wording of a fault of a parameter mapping. -/
def MappingFault.message : MappingFault → String
  | .missingProperty => "missing property name"
  | .notAnAssignment part => s!"expected name=value, found '{part}'"
  | .unknownMode mode => s!"unknown parameter mode '{mode}'"
  | .scale value => s!"numericScale must be a non-negative integer, found '{value}'"
  | .unknownAttribute name =>
    s!"unknown attribute '{name}'; valid attributes are javaType, jdbcType, mode, " ++
      "numericScale, resultMap, typeHandler, jdbcTypeName"

/-- Why keys could not be copied into a parameter. -/
inductive KeyFault where
  | noRow (statement : String)
  | severalRows (statement : String)
  | noColumn (statement property : String)
  | noValue (statement property : String)
  | surplus (statement : String) (keys records : Nat)
  | notWritable (property : String)
  | executor (reason : String)
  deriving DecidableEq, Repr

/-- The wording of a fault of key generation. -/
def KeyFault.message : KeyFault → String
  | .noRow statement => s!"{statement} returned no data"
  | .severalRows statement => s!"{statement} returned more than one row"
  | .noColumn statement property =>
    s!"{statement} returned no column for key property '{property}'"
  | .noValue statement property => s!"{statement} returned no value for key property '{property}'"
  | .surplus statement keys records =>
    s!"{statement} generated {keys} keys for {records} records"
  | .notWritable property => s!"cannot set key property '{property}' on the parameter"
  | .executor reason => reason

/-- Why a file could not be read. -/
inductive FileFault where
  | notFound
  | notADirectory
  | isADirectory
  | nameTooLong
  | notPermitted
  /-- A character that no path may hold. -/
  | nulInPath
  | other (reason : String)
  deriving DecidableEq, Repr

/-- The wording of a failure to read a file, with the number of the operating system's error. -/
def FileFault.message : FileFault → String
  | .notFound => "No such file or directory (os error 2)"
  | .notADirectory => "Not a directory (os error 20)"
  | .isADirectory => "Is a directory (os error 21)"
  | .nameTooLong => "File name too long (os error 36)"
  | .notPermitted => "Permission denied (os error 13)"
  | .nulInPath => "file name contained an unexpected NUL byte"
  | .other reason => reason

/-- What is wrong with a configuration. -/
inductive ConfigFault where
  | settings
  | settingsFile (path : String)
  | notAMapper (resource root : String)
  | other (reason : String)
  deriving DecidableEq, Repr

/-- The wording of a fault of a configuration. -/
def ConfigFault.message : ConfigFault → String
  | .settings => "TOML parse error"
  | .settingsFile path => s!"{path}: Configuration error: TOML parse error"
  | .notAMapper resource root =>
    s!"{resource}: expected a <mapper> root element, found <{root}>"
  | .other reason => reason

/-- A failure of the library. -/
inductive Failure where
  | unknownElement (tag : String)
  | severalDefaults
  | missingAttribute (element name : String)
  | invalidAttribute (element name value : String)
  | duplicate (id : String)
  | statementNotFound (id : String)
  | ambiguousStatement (id : String)
  | fragmentNotFound (id : String)
  | circularInclude (id : String)
  | markup (position : Nat) (fault : MarkupFault)
  | expression (source : String) (fault : ExprFault)
  | unresolvedSubstitution (name : String)
  | mapping (content : String) (fault : MappingFault)
  | keys (fault : KeyFault)
  | config (fault : ConfigFault)
  | file (fault : FileFault)
  deriving DecidableEq, Repr

/-- The wording of a failure. -/
def Failure.message : Failure → String
  | .unknownElement tag => s!"Unknown element <{tag}> in SQL statement"
  | .severalDefaults => "Too many default (otherwise) elements in choose statement"
  | .missingAttribute element name =>
    s!"Missing required attribute '{name}' on <{element}>"
  | .invalidAttribute element name value =>
    s!"Invalid value '{value}' for attribute '{name}' on <{element}>"
  | .duplicate id => s!"Mapped statement '{id}' is already registered"
  | .statementNotFound id => s!"Mapped statement '{id}' not found"
  | .ambiguousStatement id =>
    s!"Statement id '{id}' is ambiguous; use the namespace-qualified id"
  | .fragmentNotFound id => s!"SQL fragment '{id}' not found"
  | .circularInclude id => s!"Circular include of SQL fragment '{id}'"
  | .markup position fault => s!"Markup error at position {position}: {fault.message}"
  | .expression source fault => s!"Error evaluating expression '{source}': {fault.message}"
  | .unresolvedSubstitution name => s!"Unresolved substitution '$\x7b{name}\x7d'"
  | .mapping content fault =>
    s!"Invalid parameter mapping '#\x7b{content}\x7d': {fault.message}"
  | .keys fault => s!"Key generation error: {fault.message}"
  | .config fault => s!"Configuration error: {fault.message}"
  | .file fault => s!"IO error: {fault.message}"

end SqlTemplate
