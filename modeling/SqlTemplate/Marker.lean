import SqlTemplate.Text.Blank

/-!
# Markers

A marker is a mark and a body in braces. The mark `$` asks for text in its place, the mark `#` for
a parameter. A backslash before a marker makes it plain text and is dropped; a backslash before a
closing brace keeps that brace in the body. From a marker that is never closed on, the text stands
as it is.

A text is first cut into pieces, each a plain character or the body of a marker. All that is done
with markers is a function of these pieces.
-/

namespace SqlTemplate

/-- The two kinds of marker. -/
inductive Marker where
  | substitution
  | placeholder
  deriving DecidableEq, Repr

namespace Marker

/-- The character before the opening brace. -/
def mark : Marker → Char
  | .substitution => '$'
  | .placeholder => '#'

/-- A plain character, or the body of a marker. -/
inductive Piece where
  | char (c : Char)
  | token (body : List Char)
  deriving DecidableEq, Repr

/-- The body of an opened marker and the text after its closing brace. -/
def closing? : List Char → Option (List Char × List Char)
  | [] => none
  | '\\' :: '}' :: rest => (closing? rest).map fun r => ('}' :: r.1, r.2)
  | c :: rest => if c = '}' then some ([], rest) else (closing? rest).map fun r => (c :: r.1, r.2)

theorem length_of_closing? {s body rest : List Char} (h : closing? s = some (body, rest)) :
    rest.length < s.length := by
  fun_induction closing? s generalizing body rest with
  | case1 => simp at h
  | case2 s ih =>
    obtain ⟨r, hr, he⟩ := Option.map_eq_some_iff.1 h
    obtain ⟨-, rfl⟩ := Prod.mk.inj he
    have := ih hr
    simp only [List.length_cons]
    omega
  | case3 s =>
    obtain ⟨-, rfl⟩ := Prod.mk.inj (Option.some.inj h)
    simp
  | case4 c s hc hne ih =>
    obtain ⟨r, hr, he⟩ := Option.map_eq_some_iff.1 h
    obtain ⟨-, rfl⟩ := Prod.mk.inj he
    have := ih hr
    simp only [List.length_cons]
    omega

/-- What stands at the front of a text, seen from one kind of marker. -/
inductive Front where
  /-- The end of the text. -/
  | done
  /-- A backslash and an opening, followed by `rest`. -/
  | escaped (rest : List Char)
  /-- An opening, followed by `rest`. -/
  | opened (rest : List Char)
  /-- Any other character, followed by `rest`. -/
  | plain (c : Char) (rest : List Char)

/-- The front of a text. -/
def front (k : Marker) : List Char → Front
  | [] => .done
  | '\\' :: m :: '{' :: rest =>
    if m = k.mark then .escaped rest else .plain '\\' (m :: '{' :: rest)
  | c :: '{' :: rest => if c = k.mark then .opened rest else .plain c ('{' :: rest)
  | c :: rest => .plain c rest

theorem length_of_front (k : Marker) (s : List Char) :
    match front k s with
    | .done => True
    | .escaped rest | .opened rest | .plain _ rest => rest.length < s.length := by
  fun_cases front k s <;> grind

/-- The pieces of a text. -/
def pieces (k : Marker) (s : List Char) : List Piece :=
  have hs := length_of_front k s
  match hf : front k s with
  | .done => []
  | .escaped rest =>
    have : rest.length < s.length := by simpa [hf] using hs
    .char k.mark :: .char '{' :: pieces k rest
  | .plain c rest =>
    have : rest.length < s.length := by simpa [hf] using hs
    .char c :: pieces k rest
  | .opened rest =>
    match hc : closing? rest with
    | none => s.map .char
    | some (body, after) =>
      have : after.length < s.length := by
        have h₁ : rest.length < s.length := by simpa [hf] using hs
        have h₂ := length_of_closing? hc
        omega
      .token body :: pieces k after
termination_by s.length

/-- The bodies of a text's markers, in order. -/
def bodies (k : Marker) (s : String) : List String :=
  (pieces k s.toList).filterMap fun
    | .char _ => none
    | .token body => some (.ofList body)

/-- Whether a text holds a marker that is closed and not escaped. -/
def occursIn (k : Marker) (s : String) : Bool :=
  !(bodies k s).isEmpty

/-- The pieces put together, where `fill` gives the text of each body in order. -/
def assemble {m : Type → Type} [Monad m] (fill : String → m String) :
    List Piece → m (List Char)
  | [] => pure []
  | .char c :: rest => do
    let tail ← assemble fill rest
    return c :: tail
  | .token body :: rest => do
    let text ← fill (.ofList body)
    let tail ← assemble fill rest
    return text.toList ++ tail

/-- A text with each marker replaced by what `fill` gives for its body. -/
def replaceM {m : Type → Type} [Monad m] (k : Marker) (fill : String → m String) (s : String) :
    m String :=
  String.ofList <$> assemble fill (pieces k s.toList)

/-- A text with each marker replaced by a function of its body. -/
def replace (k : Marker) (fill : String → String) (s : String) : String :=
  Id.run (replaceM k (fun body => pure (fill body)) s)

/-- The marker with a given body, its closing braces left as they are. -/
def write (k : Marker) (body : String) : String :=
  .ofList (k.mark :: '{' :: body.toList ++ ['}'])

end Marker

end SqlTemplate
