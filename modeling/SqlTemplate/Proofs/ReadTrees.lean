import SqlTemplate.Proofs.MarkupReading

/-!
# What is read is a tree

Whatever the reader accepts is a tree: names in it are names, no text in it is empty and no two
texts meet. So what was read can be written and read again.

## Main results

* `Markup.ReadsElement.isTree`, `Markup.ReadsContent.areTrees` : what is read is made of trees.
* `Markup.isTree_of_parseDocument` : a document that is read is a tree.
-/

namespace SqlTemplate

namespace Markup

open Text

theorem ReadsAttributes.isName {attributes : List (String × String)} {w : List Char}
    (h : ReadsAttributes attributes w) : ∀ a ∈ attributes, IsName a.1 := by
  induction h with
  | nil => exact List.forall_mem_nil _
  | cons hu _ ih =>
    obtain ⟨_, _, _, hname, _, _, _⟩ := hu
    exact List.forall_mem_cons.2 ⟨hname, ih⟩

theorem exists_of_startsWithText {l : List Markup} (h : startsWithText l = true) :
    ∃ t rest, l = .text t :: rest := by
  match l with
  | .text t :: rest => exact ⟨t, rest, rfl⟩

/-- A text joins the text that content begins with, or stands before something else. -/
theorem AreTrees.consText {l : List Markup} (hl : AreTrees l) (s : List Char) :
    AreTrees (consText s l) := by
  by_cases hs : s = []
  · rw [hs]
    exact hl
  cases htext : startsWithText l with
  | false =>
    rw [consText_of_startsWithText hs htext, AreTrees, IsTree, String.toList_ofList, htext,
      Bool.and_false]
    exact ⟨hs, hl, rfl⟩
  | true =>
    obtain ⟨t, rest, rfl⟩ := exists_of_startsWithText htext
    rw [AreTrees, IsTree] at hl
    rw [consText_text hs, AreTrees, IsTree, String.toList_ofList]
    exact ⟨List.append_ne_nil_of_left_ne_nil hs _, hl.2⟩

mutual

/-- What is read as an element is a tree. -/
theorem ReadsElement.isTree {e : Element} {u : List Char} : ReadsElement e u → IsTree e.markup
  | .closed hname ha _ => by
    rw [Element.markup, IsTree, AreTrees]
    exact ⟨hname, ha.isName, trivial⟩
  | .paired hname ha _ hw _ => by
    rw [Element.markup, IsTree]
    exact ⟨hname, ha.isName, hw.areTrees⟩

/-- What is read as content is made of trees. -/
theorem ReadsContent.areTrees {l : List Markup} {w : List Char} : ReadsContent l w → AreTrees l
  | .nil => by
    rw [AreTrees]
    trivial
  | .comment _ hw => hw.areTrees
  | .data _ hw => hw.areTrees.consText _
  | .text _ _ hw => hw.areTrees.consText _
  | .element hu hw => by
    rw [AreTrees]
    exact ⟨hu.isTree, hw.areTrees, rfl⟩

end

/-- A document that is read is a tree. -/
theorem isTree_of_parseDocument {source : String} {e : Element}
    (h : parseDocument source = .ok e) : IsTree e.markup := by
  obtain ⟨p, u, q, -, -, hu, -⟩ := parseDocument_eq_ok_iff.1 h
  exact hu.isTree

end Markup

end SqlTemplate
