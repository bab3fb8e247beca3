import SqlTemplate.Markup.Reader
import SqlTemplate.Proofs.WrittenCharacters

/-!
# Ways of writing a tree

The same tree can be written in many ways. A character of a text stands as itself, as a reference
or in a section of raw text; a value stands in quotes of either kind; an element without content
has one tag or two; comments and white space stand in many places.

## Main definitions

* `Markup.IsTree` : names are names, and no text is empty or meets another one.
* `Markup.WritesElement`, `Markup.WritesContent` : the ways of writing an element and a list of
  content.

## Main results

* `Markup.WritesElement.exists_of` : every element can be written.
-/

namespace SqlTemplate

namespace Markup

open Text

/-! ### Trees -/

/-- A name that a tag or an attribute can have. -/
def IsName (s : String) : Prop :=
  s.toList ≠ [] ∧ ∀ c ∈ s.toList, isNameChar c = true

instance (s : String) : Decidable (IsName s) :=
  have : Decidable (∀ c ∈ s.toList, isNameChar c = true) := List.decidableBAll _ s.toList
  inferInstanceAs (Decidable (s.toList ≠ [] ∧ ∀ c ∈ s.toList, isNameChar c = true))

/-- Whether a list of content begins with a text. -/
def startsWithText : List Markup → Bool
  | .text _ :: _ => true
  | _ => false

mutual

/-- No two texts meet in a piece of content, at any depth. -/
def IsMerged : Markup → Prop
  | .text _ => True
  | .element _ _ children => AreMerged children

/-- The same for a list of content. -/
def AreMerged : List Markup → Prop
  | [] => True
  | m :: rest => IsMerged m ∧ AreMerged rest ∧ (startsWithText [m] && startsWithText rest) = false

end

mutual

/-- The names in a piece of content are names, and no text in it is empty or meets another. -/
def IsTree : Markup → Prop
  | .text s => s.toList ≠ []
  | .element name attributes children =>
    IsName name ∧ (∀ a ∈ attributes, IsName a.1) ∧ AreTrees children

/-- The same for a list of content. -/
def AreTrees : List Markup → Prop
  | [] => True
  | m :: rest => IsTree m ∧ AreTrees rest ∧ (startsWithText [m] && startsWithText rest) = false

end

/-! ### Ways of writing -/

/-- An attribute is written behind white space, its value in quotes of either kind. -/
inductive WritesAttribute (key value : String) : List Char → Prop
  | intro {q : Char} {before left right w : List Char} :
      q = '"' ∨ q = '\'' → before ≠ [] → IsGap before → IsGap left → IsGap right →
      WritesRun q value.toList w →
      WritesAttribute key value
        (before ++ (key.toList ++ (left ++ '=' :: (right ++ q :: (w ++ [q])))))

/-- Attributes are written one after the other. -/
inductive WritesAttributes : List (String × String) → List Char → Prop
  | nil : WritesAttributes [] []
  | cons {key value : String} {rest : List (String × String)} {u w : List Char} :
      WritesAttribute key value u → WritesAttributes rest w →
      WritesAttributes ((key, value) :: rest) (u ++ w)

/-- A text is written in characters and in sections of raw text, with comments among them. -/
inductive WritesText : List Char → List Char → Prop
  | nil : WritesText [] []
  | char {c : Char} {u s w : List Char} :
      WritesChar '<' c u → WritesText s w → WritesText (c :: s) (u ++ w)
  | data {raw s w : List Char} :
      ¬ "]]>".toList <:+: raw → WritesText s w →
      WritesText (raw ++ s) ("<![CDATA[".toList ++ (raw ++ ("]]>".toList ++ w)))
  | comment {body s w : List Char} :
      ¬ "-->".toList <:+: body → WritesText s w →
      WritesText s ("<!--".toList ++ (body ++ ("-->".toList ++ w)))

mutual

/-- An element without content is written as one tag, any element as two with its content between
them. -/
inductive WritesElement : Element → List Char → Prop
  | closed {name : String} {attributes : List (String × String)} {a g : List Char} :
      WritesAttributes attributes a → IsGap g →
      WritesElement ⟨name, attributes, []⟩ ('<' :: (name.toList ++ (a ++ (g ++ ['/', '>']))))
  | paired {name : String} {attributes : List (String × String)} {children : List Markup}
      {a g w g' : List Char} :
      WritesAttributes attributes a → IsGap g → WritesContent children w → IsGap g' →
      WritesElement ⟨name, attributes, children⟩
        ('<' :: (name.toList ++ (a ++ (g ++ '>' :: (w ++ '<' :: '/' ::
          (name.toList ++ (g' ++ ['>'])))))))

/-- Content is written piece by piece. What stands between the pieces writes no text. -/
inductive WritesContent : List Markup → List Char → Prop
  | nil {w : List Char} : WritesText [] w → WritesContent [] w
  | text {s : String} {rest : List Markup} {u w : List Char} :
      WritesText s.toList u → WritesContent rest w → WritesContent (.text s :: rest) (u ++ w)
  | element {name : String} {attributes : List (String × String)} {children rest : List Markup}
      {v u w : List Char} :
      WritesText [] v → WritesElement ⟨name, attributes, children⟩ u → WritesContent rest w →
      WritesContent (.element name attributes children :: rest) (v ++ (u ++ w))

end

/-! ### What writing begins with -/

theorem IsName.exists_cons {name : String} (h : IsName name) :
    ∃ c s, name.toList = c :: s ∧ isNameChar c = true := by
  obtain ⟨c, s, hs⟩ := List.exists_cons_of_ne_nil h.1
  exact ⟨c, s, hs, h.2 c (hs ▸ List.mem_cons_self)⟩

theorem WritesText.of_run {s u s' w : List Char} (hu : WritesRun '<' s u)
    (hw : WritesText s' w) : WritesText (s ++ s') (u ++ w) := by
  induction hu with
  | nil => exact hw
  | cons hc _ ih =>
    rw [List.append_assoc]
    exact .char hc ih

/-- Where no text is written, there is nothing, or markup begins. -/
theorem WritesText.head_of_nil {s w t : List Char} (hw : WritesText s w) (hs : s = [])
    (ht : ∀ c ∈ t.head?, c = '<') : ∀ c ∈ (w ++ t).head?, c = '<' := by
  cases hw with
  | nil => exact ht
  | char => cases hs
  | data => exact fun c hc => (Option.some.inj hc).symm
  | comment => exact fun c hc => (Option.some.inj hc).symm

/-- An element begins with its name. -/
theorem WritesElement.exists_eq {e : Element} {w : List Char} (h : WritesElement e w) :
    ∃ r, w = '<' :: (e.name.toList ++ r) := by
  cases h <;> exact ⟨_, rfl⟩

/-! ### Every tree can be written -/

theorem WritesAttributes.exists_of (attributes : List (String × String)) :
    ∃ w, WritesAttributes attributes w := by
  induction attributes with
  | nil => exact ⟨[], .nil⟩
  | cons a rest ih =>
    obtain ⟨w, hw⟩ := ih
    obtain ⟨u, hu⟩ := WritesRun.exists_of '"' a.2.toList
    exact ⟨_, .cons (.intro (Or.inl rfl) (List.cons_ne_nil ' ' []) (by decide) .nil .nil hu) hw⟩

mutual

theorem WritesElement.exists_of (name : String) (attributes : List (String × String)) :
    ∀ children : List Markup, ∃ w, WritesElement ⟨name, attributes, children⟩ w
  | children => by
    obtain ⟨a, ha⟩ := WritesAttributes.exists_of attributes
    obtain ⟨w, hw⟩ := WritesContent.exists_of children
    exact ⟨_, .paired ha .nil hw .nil⟩
termination_by children => (sizeOf children, 1)

theorem WritesContent.exists_of : ∀ l : List Markup, ∃ w, WritesContent l w
  | [] => ⟨[], .nil .nil⟩
  | .text s :: rest => by
    obtain ⟨w, hw⟩ := WritesContent.exists_of rest
    obtain ⟨u, hu⟩ := WritesRun.exists_of '<' s.toList
    have htext := WritesText.of_run hu .nil
    rw [List.append_nil] at htext
    exact ⟨_, .text htext hw⟩
  | .element name attributes children :: rest => by
    obtain ⟨w, hw⟩ := WritesContent.exists_of rest
    obtain ⟨u, hu⟩ := WritesElement.exists_of name attributes children
    exact ⟨_, .element .nil hu hw⟩
termination_by l => (sizeOf l, 0)

end

end Markup

end SqlTemplate
