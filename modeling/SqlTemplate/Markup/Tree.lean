import SqlTemplate.Failure
import SqlTemplate.Text.LetterCase
import SqlTemplate.Text.Numeral
import SqlTemplate.Text.Parts

/-!
# Markup trees

Elements with named attributes and mixed content. Attributes keep their order and may repeat a
name, in which case the first counts. The readers of attributes fail with the name of the element
and of the attribute.
-/

namespace SqlTemplate

/-- A piece of mixed content: text, or an element with its attributes and its own content. -/
inductive Markup where
  | text (text : String)
  | element (name : String) (attributes : List (String × String)) (children : List Markup)
  deriving Repr

/-- An element by itself. -/
structure Element where
  name : String
  attributes : List (String × String) := []
  children : List Markup := []
  deriving Repr

/-- An element as a piece of content. -/
def Element.markup (e : Element) : Markup :=
  .element e.name e.attributes e.children

/-- The element that a piece of content is, if it is one. -/
def Markup.element? : Markup → Option Element
  | .text _ => none
  | .element name attributes children => some ⟨name, attributes, children⟩

/-- Content with a text in front, joined to a text that it begins with. Empty text is left out. -/
def Markup.consText (s : List Char) (content : List Markup) : List Markup :=
  if s.isEmpty then content
  else match content with
    | .text t :: rest => .text (.ofList (s ++ t.toList)) :: rest
    | _ => .text (.ofList s) :: content

/-- The text of a list of content, without its tags. -/
def Markup.innerText : List Markup → String
  | [] => ""
  | .text s :: rest => s ++ innerText rest
  | .element _ _ children :: rest => innerText children ++ innerText rest

namespace Element

/-- The element with an attribute, in the place of the first one of its name. -/
def setAttribute (e : Element) (name value : String) : Element :=
  { e with attributes := go e.attributes }
where
  go : List (String × String) → List (String × String)
    | [] => [(name, value)]
    | a :: rest => if a.1 = name then (name, value) :: rest else a :: go rest

/-- The value of an attribute. -/
def attribute? (e : Element) (name : String) : Option String :=
  e.attributes.lookup name

/-- The value of an attribute that has to be there. -/
def required (e : Element) (name : String) : Except Failure String :=
  match e.attribute? name with
  | some value => .ok value
  | none => .error (.missingAttribute e.name name)

/-- A truth value, written in letters of either case. -/
def flag (e : Element) (name : String) (default : Bool) : Except Failure Bool :=
  match e.attribute? name with
  | none => .ok default
  | some value =>
    if Text.sameIgnoringCase value "true" then .ok true
    else if Text.sameIgnoringCase value "false" then .ok false
    else .error (.invalidAttribute e.name name value)

/-- A number of 32 bits, with blanks around it. -/
def count? (e : Element) (name : String) : Except Failure (Option Nat) :=
  match e.attribute? name with
  | none => .ok none
  | some value =>
    match Text.word32? (Text.trim value.toList) with
    | some n => .ok (some n)
    | none => .error (.invalidAttribute e.name name value)

/-- The elements among the children. -/
def elements (e : Element) : List Element :=
  e.children.filterMap Markup.element?

/-- The text of an element, without its tags. -/
def innerText (e : Element) : String :=
  Markup.innerText e.children

end Element

end SqlTemplate
