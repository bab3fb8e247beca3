import SqlTemplate.Markup.Reference
import SqlTemplate.Markup.Tree
import SqlTemplate.Text.Letter
import SqlTemplate.Text.Reading

/-!
# Reading markup

The part of XML that templates and mapper documents use: elements with quoted attributes,
self-closing elements, text with character references, sections of raw text and comments; before
and after the root element of a document also declarations and a document type. Names may hold
letters and digits of every script.

A reader works on the text that is left. A fault carries the text that was left where it arose,
from which its position is computed at the end.
-/

namespace SqlTemplate.Markup

open Text

/-- A fault, with the text that was left where it arose. -/
structure Stop where
  rest : List Char
  fault : MarkupFault

/-- The characters of a name. -/
def isNameChar (c : Char) : Bool :=
  isAlphanumeric c || c == '_' || c == '-' || c == ':' || c == '.'

/-- A name at the front of a text. -/
def readName (s : List Char) : Except Stop (Reading String s) :=
  if h : s.takeWhile isNameChar = [] then .error ⟨s, .expectedName⟩
  else .ok {
    value := .ofList (s.takeWhile isNameChar)
    rest := s.dropWhile isNameChar
    shorter := by
      have h₁ := congrArg List.length (List.takeWhile_append_dropWhile (p := isNameChar) (l := s))
      have h₂ := List.length_pos_iff.2 h
      simp only [List.length_append] at h₁
      omega }

/-- A given character at the front of a text. -/
def readChar (c : Char) (s : List Char) : Except Stop (Reading Unit s) :=
  match Reading.char? c s with
  | some r => .ok r
  | none => .error ⟨s, .expectedCharacter⟩

/-! ## Attributes -/

/-- What stands where an attribute could begin. -/
inductive Attribute (s : List Char) where
  /-- No attribute: what stands there belongs to the end of the tag, or is a fault there. -/
  | absent
  | present (reading : Reading (String × String) s)
  | stopped (stop : Stop)

/-- The value of an attribute in quotes of either kind. -/
def readQuoted (s : List Char) : Option (Except Stop (Reading String s)) :=
  match s with
  | [] => none
  | q :: body =>
    if q = '"' ∨ q = '\'' then
      some <| match h : cutAtChar? q body with
        | some (value, rest) => .ok ⟨.ofList (decode value), rest,
            Nat.lt_succ_of_le (Nat.le_of_add_right_le (length_of_cutAt? h))⟩
        | none => .error ⟨q :: body, .unterminatedValue⟩
    else none

/-- The attribute after the white space at the front of a text. -/
def readAttribute (s : List Char) : Attribute s :=
  if (skipGap s).length < s.length then
    match readName (skipGap s) with
    | .error _ => .absent
    | .ok key =>
      match readChar '=' (skipGap key.rest) with
      | .error _ => .absent
      | .ok eq =>
        match readQuoted (skipGap eq.rest) with
        | none => .absent
        | some (.error stop) => .stopped stop
        | some (.ok value) => .present ⟨(key.value, value.value), value.rest, by
            have h₁ := length_skipGap_le s
            have h₂ := length_skipGap_le key.rest
            have h₃ := length_skipGap_le eq.rest
            have h₄ := key.shorter
            have h₅ := eq.shorter
            have h₆ := value.shorter
            omega⟩
  else .absent

/-- The attributes at the front of a text, and what follows them. -/
def readAttributes (s : List Char) :
    Except Stop (List (String × String) × { r : List Char // r.length ≤ s.length }) :=
  match readAttribute s with
  | .absent => .ok ([], ⟨s, Nat.le_refl _⟩)
  | .stopped stop => .error stop
  | .present first => do
    have := first.shorter
    let (more, ⟨rest, h⟩) ← readAttributes first.rest
    return (first.value :: more, ⟨rest, Nat.le_trans h (Nat.le_of_lt first.shorter)⟩)
termination_by s.length

/-! ## Content -/

/-- Content at the front of a text, and what follows it: nothing, or a closing tag. -/
abbrev Content (s : List Char) := List Markup × { r : List Char // r.length ≤ s.length }

/-- What the next part of content is. -/
inductive Part (s : List Char) where
  | done
  | comment (rest : List Char) (h : rest.length < s.length)
  | unclosedComment (body : List Char)
  | data (raw rest : List Char) (h : rest.length < s.length)
  | unclosedData
  | tag
  | text (raw rest : List Char) (h : rest.length < s.length)

/-- The part of content that a text begins with. -/
def part (s : List Char) : Part s :=
  match h₁ : after? "<!--".toList s with
  | some body =>
    match h₂ : cutAt? "-->".toList body with
    | some (_, rest) => .comment rest (by
        rw [after?_eq_some_iff.1 h₁, eq_of_cutAt? h₂]
        simp only [List.length_append]
        have : "<!--".toList.length = 4 := by decide
        omega)
    | none => .unclosedComment body
  | none =>
    match h₃ : after? "<![CDATA[".toList s with
    | some body =>
      match h₄ : cutAt? "]]>".toList body with
      | some (raw, rest) => .data raw rest (by
          rw [after?_eq_some_iff.1 h₃, eq_of_cutAt? h₄]
          simp only [List.length_append]
          have : "<![CDATA[".toList.length = 9 := by decide
          omega)
      | none => .unclosedData
    | none =>
      match s with
      | [] => .done
      | c :: r =>
        if c = '<' then
          if r.head? = some '/' then .done else .tag
        else .text (c :: r.takeWhile (· != '<')) (r.dropWhile (· != '<'))
          (length_dropWhile_lt_cons (· != '<') c r)

mutual

/-- The element at the front of a text. -/
def readElement (s : List Char) : Except Stop (Reading Element s) := do
  let opening ← readChar '<' s
  let tag ← readName opening.rest
  let (attrs, ⟨rest, hrest⟩) ← readAttributes tag.rest
  have htag : rest.length < s.length := by
    have := opening.shorter
    have := tag.shorter
    omega
  have hgap := length_skipGap_le rest
  match hself : after? "/>".toList (skipGap rest) with
  | some after => return ⟨⟨tag.value, attrs, []⟩, after, by
      have := length_of_after? hself
      omega⟩
  | none =>
    let bracket ← readChar '>' (skipGap rest)
    have hbracket := bracket.shorter
    let (children, ⟨inner, hinner⟩) ← readContent bracket.rest
    match hclose : after? "</".toList inner with
    | none => .error ⟨inner, .unclosed tag.value⟩
    | some after =>
      let close ← readName after
      if close.value ≠ tag.value then
        .error ⟨inner, .mismatched tag.value close.value⟩
      else
        let final ← readChar '>' (skipGap close.rest)
        return ⟨⟨tag.value, attrs, children⟩, final.rest, by
          have h₁ := length_of_after? hclose
          have h₂ := close.shorter
          have h₃ := length_skipGap_le close.rest
          have h₄ := final.shorter
          omega⟩
termination_by (s.length, 0)

/-- The content at the front of a text. -/
def readContent (s : List Char) : Except Stop (Content s) :=
  match part s with
  | .done => .ok ([], ⟨s, Nat.le_refl _⟩)
  | .comment rest h => do
    let (nodes, ⟨r, hr⟩) ← readContent rest
    return (nodes, ⟨r, by omega⟩)
  | .unclosedComment body => .error ⟨body, .unterminatedComment⟩
  | .data raw rest h => do
    let (nodes, ⟨r, hr⟩) ← readContent rest
    return (consText raw nodes, ⟨r, by omega⟩)
  | .unclosedData => .error ⟨s, .unterminatedData⟩
  | .tag => do
    let first ← readElement s
    have := first.shorter
    let (nodes, ⟨r, hr⟩) ← readContent first.rest
    return (first.value.markup :: nodes, ⟨r, by omega⟩)
  | .text raw rest h => do
    let (nodes, ⟨r, hr⟩) ← readContent rest
    return (consText (decode raw) nodes, ⟨r, by omega⟩)
termination_by (s.length, 1)

end

/-! ## Documents -/

/-- The failure that a fault is at its position in the source. -/
def Stop.failure (source : List Char) (stop : Stop) : Failure :=
  .markup (byteLength source - byteLength stop.rest) stop.fault

/-- The closer of the declaration, comment or document type that a text begins with. -/
def prologCloser? (s : List Char) : Option String :=
  if (after? "<?".toList s).isSome then some "?>"
  else if (after? "<!--".toList s).isSome then some "-->"
  else if (after? "<!".toList s).isSome then some ">"
  else none

/-- The text after the blanks, declarations, comments and document types at its front. The
position of a fault counts from the end of the one before. -/
def skipProlog (s : List Char) : Except Failure (List Char) :=
  match hc : prologCloser? (trimStart s) with
  | none => .ok (trimStart s)
  | some closer =>
    match h : cutAt? closer.toList (trimStart s) with
    | some (_, rest) =>
      have : rest.length < s.length := by
        have h₁ := congrArg List.length (eq_of_cutAt? h)
        have h₂ := length_dropWhile_le isBlank s
        have h₃ : 0 < closer.toList.length := by
          unfold prologCloser? at hc
          split at hc
          · obtain rfl := Option.some.inj hc; decide
          split at hc
          · obtain rfl := Option.some.inj hc; decide
          split at hc
          · obtain rfl := Option.some.inj hc; decide
          · simp at hc
        simp only [trimStart, List.length_append] at h₁
        omega
      skipProlog rest
    | none =>
      .error (.markup (byteLength s - byteLength (trimStart s)) (.unterminated closer))
termination_by s.length

/-- The root element of a document. -/
def parseDocument (source : String) : Except Failure Element := do
  let chars := source.toList
  let rest ← skipProlog chars
  if rest.head? ≠ some '<' then throw (Stop.failure chars ⟨rest, .expectedRoot⟩)
  let root ← (readElement rest).mapError (Stop.failure chars)
  let rest ← skipProlog root.rest
  if !rest.isEmpty then throw (Stop.failure chars ⟨rest, .afterRoot⟩)
  return root.value

/-- Content without an element around it. -/
def parseContent (source : String) : Except Failure (List Markup) := do
  let chars := source.toList
  let (nodes, ⟨rest, _⟩) ← (readContent chars).mapError (Stop.failure chars)
  if !rest.isEmpty then throw (Stop.failure chars ⟨rest, .closingTag⟩)
  return nodes

end SqlTemplate.Markup
