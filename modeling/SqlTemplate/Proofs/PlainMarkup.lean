import SqlTemplate.Proofs.MarkupReading

/-!
# Markup that is plainly written

A tree is plainly written with every character of it as it stands: tags and attributes one blank
apart, values in double quotes, a closing tag for every element. Where no character in it needs
another way of writing, this is a way of writing it, so that the reader gives the tree back.

## Main definitions

* `Markup.write`, `Markup.writeAll` : a tree, plainly written.
* `Markup.IsPlain` : no character of a tree needs another way of writing.

## Main results

* `Markup.writesContent_writeAll` : plain writing is one of the ways.
* `Markup.parseDocument_write` : a document is read as the element that it was plainly written
  from.
-/

namespace SqlTemplate

namespace Markup

open Text

/-! ### Plain writing -/

/-- An attribute, behind a blank. -/
def writeAttribute (a : String × String) : List Char :=
  ' ' :: (a.1.toList ++ '=' :: '"' :: (a.2.toList ++ ['"']))

mutual

/-- A piece of content, plainly written. -/
def write : Markup → List Char
  | .text s => s.toList
  | .element name attributes children =>
    '<' :: (name.toList ++ (attributes.flatMap writeAttribute ++
      '>' :: (writeAll children ++ '<' :: '/' :: (name.toList ++ ['>']))))

/-- A list of content, plainly written. -/
def writeAll : List Markup → List Char
  | [] => []
  | m :: rest => write m ++ writeAll rest

end

mutual

/-- No character of a piece of content needs another way of writing. -/
def IsPlain : Markup → Prop
  | .text s => s.toList ≠ [] ∧ Lacks '<' s
  | .element name attributes children =>
    IsName name ∧ (∀ a ∈ attributes, IsName a.1 ∧ Lacks '"' a.2) ∧ ArePlain children

/-- The same for a list of content, in which no texts meet. -/
def ArePlain : List Markup → Prop
  | [] => True
  | m :: rest => IsPlain m ∧ ArePlain rest ∧ (startsWithText [m] && startsWithText rest) = false

end

mutual

/-- Whether a piece of content is plain. -/
def decidePlain : (m : Markup) → Decidable (IsPlain m)
  | .text s => inferInstanceAs (Decidable (s.toList ≠ [] ∧ Lacks '<' s))
  | .element name attributes children =>
    have := decideAllPlain children
    have : Decidable (∀ a ∈ attributes, IsName a.1 ∧ Lacks '"' a.2) :=
      List.decidableBAll _ attributes
    inferInstanceAs (Decidable (IsName name ∧ (∀ a ∈ attributes, IsName a.1 ∧ Lacks '"' a.2) ∧
      ArePlain children))

/-- Whether a list of content is plain. -/
def decideAllPlain : (l : List Markup) → Decidable (ArePlain l)
  | [] => inferInstanceAs (Decidable True)
  | m :: rest =>
    have := decidePlain m
    have := decideAllPlain rest
    inferInstanceAs (Decidable (IsPlain m ∧ ArePlain rest ∧
      (startsWithText [m] && startsWithText rest) = false))

end

instance (m : Markup) : Decidable (IsPlain m) := decidePlain m

/-! ### Reading it back -/

mutual

theorem IsPlain.isTree : ∀ m : Markup, IsPlain m → IsTree m
  | .text _, h => by
    rw [IsPlain] at h
    rw [IsTree]
    exact h.1
  | .element _ _ children, h => by
    rw [IsPlain] at h
    rw [IsTree]
    exact ⟨h.1, fun a ha => (h.2.1 a ha).1, ArePlain.areTrees children h.2.2⟩

theorem ArePlain.areTrees : ∀ l : List Markup, ArePlain l → AreTrees l
  | [], _ => by rw [AreTrees]; trivial
  | m :: rest, h => by
    rw [ArePlain] at h
    rw [AreTrees]
    exact ⟨IsPlain.isTree m h.1, ArePlain.areTrees rest h.2.1, h.2.2⟩

end

theorem writesAttributes_flatMap {attributes : List (String × String)}
    (h : ∀ a ∈ attributes, Lacks '"' a.2) :
    WritesAttributes attributes (attributes.flatMap writeAttribute) := by
  induction attributes with
  | nil => exact .nil
  | cons a rest ih =>
    exact .cons (.intro (Or.inl rfl) (List.cons_ne_nil ' ' []) (by decide) .nil .nil
      (.of_lacks (h a List.mem_cons_self))) (ih fun b hb => h b (List.mem_cons_of_mem _ hb))

mutual

theorem writesElement_write (name : String) (attributes : List (String × String)) :
    ∀ children : List Markup, IsPlain (.element name attributes children) →
      WritesElement ⟨name, attributes, children⟩ (write (.element name attributes children))
  | children, h => by
    rw [IsPlain] at h
    rw [write]
    exact .paired (writesAttributes_flatMap fun a ha => (h.2.1 a ha).2) .nil
      (writesContent_writeAll children h.2.2) .nil
termination_by children => (sizeOf children, 1)

/-- Plain writing is one of the ways of writing content. -/
theorem writesContent_writeAll : ∀ l : List Markup, ArePlain l → WritesContent l (writeAll l)
  | [], _ => .nil .nil
  | .text s :: rest, h => by
    rw [ArePlain, IsPlain] at h
    have htext := WritesText.of_run (.of_lacks h.1.2) .nil
    rw [List.append_nil] at htext
    exact .text htext (writesContent_writeAll rest h.2.1)
  | .element name attributes children :: rest, h => by
    rw [ArePlain] at h
    exact .element .nil (writesElement_write name attributes children h.1)
      (writesContent_writeAll rest h.2.1)
termination_by l => (sizeOf l, 0)

end

/-- A document is read as the element that it was plainly written from. -/
theorem parseDocument_write {source : String} {e : Element}
    (hsource : source.toList = write e.markup) (h : IsPlain e.markup) :
    parseDocument source = .ok e := by
  refine parseDocument_of_writes (IsPlain.isTree e.markup h) ?_
  rw [hsource]
  exact writesElement_write e.name e.attributes e.children h

end Markup

end SqlTemplate
