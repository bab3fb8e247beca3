import SqlTemplate.Decimal.Reading
import SqlTemplate.Json.Reader
import SqlTemplate.Toml.Value

/-!
# Reading TOML

A reader of TOML documents, which says whether a text is one and what it holds. Each reader takes
something from the front of a text; those that repeat are bounded by the length of the text.
-/

namespace SqlTemplate.Toml

open Text

/-- A reader of something at the front of a text. -/
abbrev Reader (α : Type) := List Char → Option (α × List Char)

/-- White space within a line. -/
def skipSpace (s : List Char) : List Char :=
  s.dropWhile fun c => c == ' ' || c == '\t'

/-- The text after the end of a line, or at the end of the document. -/
def lineEnd? : List Char → Option (List Char)
  | [] => some []
  | '\n' :: s => some s
  | '\r' :: '\n' :: s => some s
  | _ => none

/-- The characters that comments and strings hold as they are. -/
def isPlain (c : Char) : Bool :=
  c == '\t' || (32 ≤ c.toNat && c.toNat ≠ 127)

/-- The text after a comment, if there is one. -/
def skipComment : List Char → List Char
  | '#' :: s => s.dropWhile isPlain
  | s => s

/-- The text after white space, a comment and the end of a line. -/
def finishLine? (s : List Char) : Option (List Char) :=
  lineEnd? (skipComment (skipSpace s))

/-- The text after white space, comments and ends of lines. The fuel bounds the number of lines. -/
def skipLines : Nat → List Char → List Char
  | 0, s => s
  | n + 1, s =>
    match skipComment (skipSpace s) with
    | [] => []
    | rest =>
      match lineEnd? rest with
      | some next => skipLines n next
      | none => rest

/-- The text after white space, comments and ends of lines. -/
def skipBlank (s : List Char) : List Char :=
  skipLines (s.length + 1) s

/-! ## Strings -/

/-- The character of a code of hexadecimal digits. -/
def codeChar? (size : Nat) (s : List Char) : Option (Char × List Char) := do
  if (s.take size).length < size then none
  let n ← digits? 16 (s.take size)
  if n.isValidChar then return (.ofNat n, s.drop size) else none

/-- The character after a backslash. -/
def escape? : Reader Char
  | 'b' :: s => some ('\x08', s)
  | 't' :: s => some ('\t', s)
  | 'n' :: s => some ('\n', s)
  | 'f' :: s => some ('\x0c', s)
  | 'r' :: s => some ('\r', s)
  | '"' :: s => some ('"', s)
  | '\\' :: s => some ('\\', s)
  | 'u' :: s => codeChar? 4 s
  | 'U' :: s => codeChar? 8 s
  | _ => none

/-- The rest of a string on one line, up to its quote. -/
def lineString? (quote : Char) : Nat → Reader (List Char)
  | 0, _ => none
  | _ + 1, [] => none
  | n + 1, c :: s =>
    if c = quote then some ([], s)
    else if c = '\\' ∧ quote = '"' then do
      let (c, s) ← escape? s
      let (cs, s) ← lineString? quote n s
      return (c :: cs, s)
    else if isPlain c then do
      let (cs, s) ← lineString? quote n s
      return (c :: cs, s)
    else none

/-- The text after a backslash at the end of a line: white space up to the end of the line, and
all white space and line ends that follow. -/
def joinLines? (s : List Char) : Option (List Char) :=
  (lineEnd? (skipSpace s)).bind fun rest =>
    if (skipSpace s).isEmpty then none
    else some (skip (rest.length + 1) rest)
where
  skip : Nat → List Char → List Char
    | 0, s => s
    | n + 1, s =>
      match skipSpace s with
      | [] => []
      | rest =>
        match lineEnd? rest with
        | some next => skip n next
        | none => rest

/-- The rest of a string over several lines, up to three quotes. Up to two quotes may stand before
these. -/
def blockString? (quote : Char) : Nat → Reader (List Char)
  | 0, _ => none
  | _ + 1, [] => none
  | n + 1, c :: s =>
    if c = quote then
      let quotes := s.takeWhile (· == quote)
      if quotes.length < 2 then do
        let (cs, s) ← blockString? quote n s
        return (c :: cs, s)
      else if quotes.length ≤ 4 then
        some (List.replicate (quotes.length - 2) quote, s.drop quotes.length)
      else none
    else if c = '\\' ∧ quote = '"' then
      match joinLines? s with
      | some s => blockString? quote n s
      | none => do
        let (c, s) ← escape? s
        let (cs, s) ← blockString? quote n s
        return (c :: cs, s)
    else if isPlain c ∨ c = '\n' then do
      let (cs, s) ← blockString? quote n s
      return (c :: cs, s)
    else if c = '\r' then
      match s with
      | '\n' :: s => do
        let (cs, s) ← blockString? quote n s
        return ('\n' :: cs, s)
      | _ => none
    else none

/-- A string in one of the four kinds of quotes. -/
def string? (s : List Char) : Option (String × List Char) :=
  let ofChars (r : Option (List Char × List Char)) := r.map fun r => (String.ofList r.1, r.2)
  let dropLine (s : List Char) := if s.isEmpty then s else (lineEnd? s).getD s
  match s with
  | '"' :: '"' :: '"' :: s => ofChars (blockString? '"' (s.length + 1) (dropLine s))
  | '\'' :: '\'' :: '\'' :: s => ofChars (blockString? '\'' (s.length + 1) (dropLine s))
  | '"' :: s => ofChars (lineString? '"' (s.length + 1) s)
  | '\'' :: s => ofChars (lineString? '\'' (s.length + 1) s)
  | _ => none

/-! ## Numbers and moments -/

/-- Digits of a base with single underscores between them. -/
def digitRun? (base : Nat) (s : List Char) : Option (List Char × List Char) :=
  let run := s.takeWhile fun c => c == '_' || (digitValue? base c).isSome
  let groups := run.splitOn '_'
  if groups.any (·.isEmpty) then none else some (groups.flatten, s.drop run.length)

/-- A sign, if there is one. -/
def sign : List Char → Bool × List Char
  | '-' :: s => (true, s)
  | '+' :: s => (false, s)
  | s => (false, s)

/-- A whole number in decimal digits, without zeros in front. -/
def whole? (s : List Char) : Option (List Char × List Char) := do
  let (ds, rest) ← digitRun? 10 s
  if 1 < ds.length ∧ ds.head? = some '0' then none else return (ds, rest)

/-- An integer of 64 bits. -/
def bounded? (n : Int) : Option Toml :=
  if isInt64 n then some (.integer n) else none

/-- An integer in any base. -/
def integer? (s : List Char) : Option (Toml × List Char) :=
  let based (base : Nat) (s : List Char) : Option (Toml × List Char) := do
    let (ds, rest) ← digitRun? base s
    return (← bounded? (Int.ofNat (← digits? base ds)), rest)
  match s with
  | '0' :: 'x' :: s => based 16 s
  | '0' :: 'o' :: s => based 8 s
  | '0' :: 'b' :: s => based 2 s
  | s => do
    let (negative, s) := sign s
    let (ds, rest) ← whole? s
    let n ← digits? 10 ds
    return (← bounded? (if negative then -(n : Int) else n), rest)

/-- The digits of an exponent and its sign, after its letter. -/
def exponent? (s : List Char) : Option (Option Int × List Char) :=
  match s with
  | c :: s =>
    if c = 'e' ∨ c = 'E' then do
      let (negative, s) := sign s
      let (ds, rest) ← digitRun? 10 s
      let n ← digits? 10 ds
      return (some (if negative then -(n : Int) else n), rest)
    else some (none, c :: s)
  | [] => some (none, [])

/-- A number with a fraction, an exponent or both, or a word for a number that is not finite. -/
def float? (s : List Char) : Option (Toml × List Char) := do
  let (negative, s) := sign s
  let signed (x : Float) : Toml := .float (if negative then -x else x)
  match after? "inf".toList s, after? "nan".toList s with
  | some rest, _ => return (signed (1.0 / 0.0), rest)
  | _, some rest => return (signed (0.0 / 0.0), rest)
  | none, none =>
    let (ds, rest) ← whole? s
    let (fraction, rest) ← match rest with
      | '.' :: rest => (digitRun? 10 rest).map fun r => (some r.1, r.2)
      | rest => some (none, rest)
    let (e, rest) ← exponent? rest
    if fraction.isNone ∧ e.isNone then none
    let digits := fraction.getD []
    let x := Decimal.nearest (Decimal.digitsValue (ds ++ digits)) (e.getD 0 - digits.length)
    if x.isInf ∧ !negative then none
    return (signed x, rest)

/-- A number of a fixed count of digits between two bounds. -/
def field? (size low high : Nat) (s : List Char) : Option (Nat × List Char) := do
  if (s.take size).length < size then none
  let n ← digits? 10 (s.take size)
  if low ≤ n ∧ n ≤ high then return (n, s.drop size) else none

/-- The number of days of a month. -/
def daysOf (year month : Nat) : Nat :=
  if month = 2 then
    if year % 4 = 0 ∧ (year % 100 ≠ 0 ∨ year % 400 = 0) then 29 else 28
  else if month = 4 ∨ month = 6 ∨ month = 9 ∨ month = 11 then 30 else 31

/-- The text after a date. -/
def date? (s : List Char) : Option (List Char) := do
  let (year, s) ← field? 4 0 9999 s
  let s ← after? ['-'] s
  let (month, s) ← field? 2 1 12 s
  let s ← after? ['-'] s
  let (_, s) ← field? 2 1 (daysOf year month) s
  return s

/-- The text after a time of day. -/
def time? (s : List Char) : Option (List Char) := do
  let (_, s) ← field? 2 0 23 s
  let s ← after? [':'] s
  let (_, s) ← field? 2 0 59 s
  let s ← after? [':'] s
  let (_, s) ← field? 2 0 60 s
  match s with
  | '.' :: rest =>
    if (rest.takeWhile Char.isDigit).isEmpty then none
    return rest.dropWhile Char.isDigit
  | s => return s

/-- The text after an offset from universal time, if there is one. -/
def offset? (s : List Char) : Option (List Char) :=
  match s with
  | 'Z' :: s | 'z' :: s => some s
  | c :: rest =>
    if c = '+' ∨ c = '-' then do
      let (_, s) ← field? 2 0 23 rest
      let s ← after? [':'] s
      let (_, s) ← field? 2 0 59 s
      return s
    else some s
  | [] => some []

/-- A date, a time or both. -/
def moment? (s : List Char) : Option (Toml × List Char) :=
  let taken (rest : List Char) : Toml × List Char :=
    (.moment (.ofList (s.take (s.length - rest.length))), rest)
  match date? s with
  | some rest =>
    match rest with
    | c :: tail =>
      if c = 'T' ∨ c = 't' ∨ c = ' ' then
        match time? tail with
        | some rest => (offset? rest).map taken
        | none => if c = ' ' then some (taken rest) else none
      else some (taken rest)
    | [] => some (taken [])
  | none => (time? s).map taken

/-! ## Keys and values -/

/-- The number of levels to which arrays and tables in braces may be nested, and the number of parts
that a key may have. -/
def levelLimit : Nat := 79

/-- The characters of a key without quotes. -/
def isKeyChar (c : Char) : Bool :=
  c.isAlphanum || c == '_' || c == '-'

/-- A key between points. -/
def simpleKey? (s : List Char) : Option (String × List Char) :=
  match s with
  | '"' :: s => (lineString? '"' (s.length + 1) s).map fun r => (.ofList r.1, r.2)
  | '\'' :: s => (lineString? '\'' (s.length + 1) s).map fun r => (.ofList r.1, r.2)
  | s =>
    let key := s.takeWhile isKeyChar
    if key.isEmpty then none else some (.ofList key, s.dropWhile isKeyChar)

/-- A key of at most so many parts with points between them: the parts before the last, and the
last. -/
def key? : Nat → Reader (List String × String)
  | 0, _ => none
  | n + 1, s => do
    let (first, rest) ← simpleKey? (skipSpace s)
    match skipSpace rest with
    | '.' :: rest =>
      let ((path, last), rest) ← key? n rest
      return ((first :: path, last), rest)
    | rest => return (([], first), rest)

/-- A key, an equals sign and a value. -/
def pair? (value : Reader Toml) (s : List Char) :
    Option ((List String × String × Toml) × List Char) := do
  let ((path, last), rest) ← key? levelLimit s
  match rest with
  | '=' :: rest =>
    let (v, rest) ← value (skipSpace rest)
    return ((path, last, v), rest)
  | _ => none

/-- The items of an array up to its bracket. A comma may follow the last. -/
def items? (value : Reader Toml) : Nat → Reader (List Toml)
  | 0, _ => none
  | n + 1, s =>
    match skipBlank s with
    | ']' :: rest => some ([], rest)
    | s => do
      let (v, rest) ← value s
      match skipBlank rest with
      | ',' :: rest =>
        let (vs, rest) ← items? value n rest
        return (v :: vs, rest)
      | ']' :: rest => return ([v], rest)
      | _ => none

/-- The pairs of a table in braces, of which the first is due. -/
def pairs? (value : Reader Toml) : Nat → Reader (List (List String × String × Toml))
  | 0, _ => none
  | n + 1, s => do
    let (p, rest) ← pair? value s
    match skipSpace rest with
    | ',' :: rest =>
      let (ps, rest) ← pairs? value n rest
      return (p :: ps, rest)
    | '}' :: rest => return ([p], rest)
    | _ => none

/-- The table of the pairs in braces. -/
def ofPairs (pairs : List (List String × String × Toml)) : Option Toml :=
  (pairs.foldlM (fun fields (path, key, value) => assign fields .declared path key value) []).map
    (.table .closed)

/-- A value, in which arrays and tables in braces are nested at most `depth` levels. -/
def value? : (depth : Nat) → Reader Toml
  | depth, s =>
    match depth, s with
    | d + 1, '[' :: s => (items? (value? d) (s.length + 1) s).map fun r => (.array r.1, r.2)
    | d + 1, '{' :: s =>
      match skipSpace s with
      | '}' :: rest => some (.table .closed [], rest)
      | s => do
        let (pairs, rest) ← pairs? (value? d) (s.length + 1) s
        return (← ofPairs pairs, rest)
    | _, s =>
      match string? s, after? "true".toList s, after? "false".toList s with
      | some (text, rest), _, _ => some (.string text, rest)
      | none, some rest, _ => some (.boolean true, rest)
      | none, none, some rest => some (.boolean false, rest)
      | none, none, none => ((moment? s).or (float? s)).or (integer? s)

/-! ## Documents -/

/-- A document while it is read: its tables, and the path of the table that is open. -/
structure Document where
  root : Fields := []
  path : List String := []

/-- The text after the brackets of a header. -/
def header? (brackets : List Char) (s : List Char) :
    Option ((List String × String) × List Char) := do
  let rest ← after? brackets s
  let (key, rest) ← key? levelLimit rest
  let rest ← after? (brackets.map fun _ => ']') rest
  return (key, rest)

/-- Sets a dotted key in the open table. -/
def Document.assign? (d : Document) (path : List String) (key : String) (value : Toml) :
    Option Document := do
  let root ← within .implied d.root (fun origin fields => assign fields origin path key value)
    .declared d.path
  return { d with root }

/-- One line: a header, a pair, or nothing. -/
def line? (d : Document) (s : List Char) : Option (Document × List Char) :=
  match s with
  | '[' :: '[' :: _ => do
    let ((path, key), rest) ← header? ['[', '['] s
    return (⟨← openItem d.root path key, path ++ [key]⟩, rest)
  | '[' :: _ => do
    let ((path, key), rest) ← header? ['['] s
    return (⟨← openTable d.root path key, path ++ [key]⟩, rest)
  | [] | '#' :: _ | '\n' :: _ | '\r' :: _ => some (d, s)
  | s => do
    let ((path, key, value), rest) ← pair? (value? levelLimit) s
    return (← d.assign? path key value, rest)

/-- The lines of a document. The fuel bounds their number. -/
def lines? (d : Document) : Nat → List Char → Option Document
  | 0, s => if s.isEmpty then some d else none
  | n + 1, s =>
    if s.isEmpty then some d
    else do
      let (d, rest) ← line? d (skipSpace s)
      let rest ← finishLine? rest
      lines? d n rest

/-- The fields of the document that a text is. A byte order mark in front is passed over. -/
def parse? (text : String) : Option Fields :=
  let s := text.toList
  let s := (after? [.ofNat 0xFEFF] s).getD s
  (lines? {} (s.length + 1) s).map (·.root)

end SqlTemplate.Toml
