import Mathlib
import SqlTemplate.Proofs.Prologs

/-!
# Reading back what is written

In whichever way a tree is written, the reader gives it back: what writes an element is one of the
texts that are read as it. A character reference does not reach over the end of a run of text, so
that a run is decoded as the characters that it was written from.

## Main results

* `Markup.ReadsContent.of_writesText` : a text in one piece, however it is written.
* `Markup.WritesElement.reads`, `Markup.WritesContent.reads` : what writes a tree is read as it.
* `Markup.document_read_back` : a document is read as the element that it was written from.
-/

namespace SqlTemplate

namespace Markup

open Text

/-! ### Attributes -/

theorem WritesAttribute.reads {key value : String} {u : List Char}
    (h : WritesAttribute key value u) (hkey : IsName key) : ReadsAttribute (key, value) u := by
  obtain @⟨q, before, left, right, w, hq, hne, hbefore, hleft, hright, hw⟩ := h
  have hlacks : q ∉ w := by
    refine hw.not_mem ?_ ?_
    · rcases hq with rfl | rfl <;> decide
    · rcases hq with rfl | rfl <;> decide
  have hvalue : String.ofList (decode w) = value := by
    rw [hw.decode_eq, String.ofList_toList]
  rw [← hvalue]
  exact .intro hq hne hbefore hkey hleft hright hlacks

theorem WritesAttributes.reads {attributes : List (String × String)} {a : List Char}
    (h : WritesAttributes attributes a) (hnames : ∀ a ∈ attributes, IsName a.1) :
    ReadsAttributes attributes a := by
  induction h with
  | nil => exact .nil
  | cons hu _ ih =>
    exact .cons (hu.reads (hnames _ List.mem_cons_self))
      (ih fun a ha => hnames a (List.mem_cons_of_mem _ ha))

/-! ### Texts -/

/-- A text that stands before something else stays by itself. -/
theorem consText_of_startsWithText {s : List Char} {l : List Markup} (hs : s ≠ [])
    (hl : startsWithText l = false) : consText s l = .text (.ofList s) :: l := by
  rw [consText, if_neg (by simpa using hs)]
  rintro t rest rfl
  cases hl

theorem consText_text {s : List Char} (hs : s ≠ []) (t : String) (l : List Markup) :
    consText s (.text t :: l) = .text (.ofList (s ++ t.toList)) :: l := by
  rw [consText, if_neg (by simpa using hs)]

/-- Texts that are joined one after the other are joined as one. -/
theorem consText_append (s s' : List Char) (l : List Markup) :
    consText (s ++ s') l = consText s (consText s' l) := by
  by_cases hs : s = []
  · subst hs
    rfl
  by_cases hs' : s' = []
  · subst hs'
    rw [List.append_nil]
    rfl
  match l with
  | .text t :: rest => simp [consText, hs, hs']
  | [] => simp [consText, hs, hs']
  | .element name attributes children :: rest => simp [consText, hs, hs']

theorem ReadsContent.of_run {s w t : List Char} {l : List Markup} (hw : WritesRun '<' s w)
    (ht : ∀ c ∈ t.head?, c = '<') (hread : ReadsContent l t) :
    ReadsContent (consText s l) (w ++ t) := by
  have hlacks : '<' ∉ w := hw.not_mem (by decide) (by decide)
  rw [← hw.decode_eq]
  exact .text hlacks ht hread

/-- A text is read up to the next tag. The reader decodes a run of characters as a whole, so what
stands of the run before the text is carried along. -/
theorem ReadsContent.of_writesText {s w t : List Char} {l : List Markup} (hw : WritesText s w)
    (ht : ∀ c ∈ t.head?, c = '<') (hread : ReadsContent l t) :
    ∀ {s₀ w₀ : List Char}, WritesRun '<' s₀ w₀ →
      ReadsContent (consText (s₀ ++ s) l) (w₀ ++ (w ++ t)) := by
  induction hw with
  | nil =>
    intro s₀ w₀ hrun
    rw [List.append_nil]
    exact .of_run hrun ht hread
  | @char c u s w hc _ ih =>
    intro s₀ w₀ hrun
    have hread := ih (hrun.append (.cons hc .nil))
    simpa using hread
  | @data raw s w hraw _ ih =>
    intro s₀ w₀ hrun
    have hdata := ReadsContent.data hraw (ih .nil)
    rw [consText_append, consText_append]
    have hread := ReadsContent.of_run hrun (head_data _) hdata
    simpa only [List.append_assoc, List.nil_append] using hread
  | @comment body s w hbody _ ih =>
    intro s₀ w₀ hrun
    have hcomment := ReadsContent.comment hbody (ih .nil)
    rw [consText_append]
    have hread := ReadsContent.of_run hrun (head_comment _) hcomment
    simpa only [List.append_assoc, List.nil_append] using hread

/-! ### Elements and content -/

/-- Content that begins with no text begins with markup, or not at all. -/
theorem WritesContent.head_of_not_text {l : List Markup} {w t : List Char}
    (hw : WritesContent l w) (htext : startsWithText l = false) (ht : IsEnd t) :
    ∀ c ∈ (w ++ t).head?, c = '<' := by
  cases hw with
  | nil hv =>
    refine hv.head_of_nil rfl ?_
    rcases ht with rfl | ⟨r, rfl⟩ <;> simp
  | text => cases htext
  | element hv hu _ =>
    rw [List.append_assoc]
    refine hv.head_of_nil rfl fun c hc => ?_
    obtain ⟨r, rfl⟩ := hu.exists_eq
    exact (Option.some.inj hc).symm

mutual

/-- What writes an element is read as it. -/
theorem WritesElement.reads {e : Element} {w : List Char} :
    WritesElement e w → IsTree e.markup → ReadsElement e w
  | .closed ha hg, htree => by
    rw [Element.markup, IsTree] at htree
    exact .closed htree.1 (ha.reads htree.2.1) hg
  | .paired ha hg hw hg', htree => by
    rw [Element.markup, IsTree] at htree
    exact .paired htree.1 (ha.reads htree.2.1) hg (hw.reads htree.2.2) hg'

/-- What writes content is read as it. -/
theorem WritesContent.reads {l : List Markup} {w : List Char} :
    WritesContent l w → AreTrees l → ReadsContent l w
  | @WritesContent.nil w hv, _ => by
    have hread := ReadsContent.of_writesText hv (t := []) (fun c hc => by cases hc) .nil .nil
    rwa [List.nil_append, List.append_nil] at hread
  | @WritesContent.text s rest u w hu hw, htrees => by
    rw [AreTrees, IsTree] at htrees
    obtain ⟨hne, hrest, hmeet⟩ := htrees
    have htext : startsWithText rest = false := by simpa [startsWithText] using hmeet
    have hhead := hw.head_of_not_text htext (t := []) (Or.inl rfl)
    rw [List.append_nil] at hhead
    have hread := ReadsContent.of_writesText hu hhead (hw.reads hrest) .nil
    rwa [List.nil_append, consText_of_startsWithText hne htext, String.ofList_toList] at hread
  | @WritesContent.element name attributes children rest v u w hv hu hw, htrees => by
    rw [AreTrees] at htrees
    obtain ⟨hfirst, hrest, -⟩ := htrees
    obtain ⟨r, rfl⟩ := hu.exists_eq
    have hread := ReadsContent.element (hu.reads hfirst) (hw.reads hrest)
    exact .of_writesText hv (forall_mem_head?_cons _ rfl) hread .nil

end

/-! ### Documents -/

/-- A document is read as the element that it was written from. -/
theorem parseDocument_of_writes {source : String} {e : Element} (he : IsTree e.markup)
    (h : WritesElement e source.toList) : parseDocument source = .ok e :=
  parseDocument_eq_ok_iff.2
    ⟨[], source.toList, [], (List.append_nil _).symm, isProlog_nil, h.reads he, isProlog_nil⟩

/-- Every tree can be written as a document, and each way of writing it is read back as the tree
itself. -/
theorem document_read_back (e : Element) (he : IsTree e.markup) :
    (∃ source : String, WritesElement e source.toList) ∧
      ∀ source : String, WritesElement e source.toList → parseDocument source = .ok e := by
  obtain ⟨w, hw⟩ := WritesElement.exists_of e.name e.attributes e.children
  exact ⟨⟨.ofList w, by rwa [String.toList_ofList]⟩,
    fun source hsource => parseDocument_of_writes he hsource⟩

/-! ### A statement written in mixed ways -/

namespace mixed

/-- A statement with characters in it that markup keeps for itself. -/
def statement : Element :=
  ⟨"select", [("id", "a\"b"), ("note", "it's <here>")],
    [.text "x < y && z", .element "where" [] [], .element "limit" [] [.text "1"]]⟩

/-- References of each kind, a section of raw text, comments, quotes of either kind, an element
with one tag and white space that need not be there. -/
def source : String :=
  "<select id=\"a&quot;b\" note = 'it&apos;s <here>'>" ++
    "x &lt;<!-- less --> y <![CDATA[&& ]]>&#122;<where/><!----><limit >&#x31;</limit ></select>"

theorem isTree : IsTree statement.markup := by
  simp only [statement, Element.markup, IsTree, AreTrees, startsWithText]
  decide

theorem writesAttributes : ∃ a, WritesAttributes statement.attributes a ∧
    a = " id=\"a&quot;b\" note = 'it&apos;s <here>'".toList := by
  have ha : Lacks '"' "a" := by decide
  have hb : Lacks '"' "b" := by decide
  have hit : Lacks '\'' "it" := by decide
  have hs : Lacks '\'' "s <here>" := by decide
  have hquot : Refers '"' "quot".toList := .named (by decide)
  have hapos : Refers '\'' "apos".toList := .named (by decide)
  have hblank : IsGap [' '] := by decide
  have hid := (WritesRun.of_lacks ha).append (.cons (.reference hquot) (.of_lacks hb))
  have hnote := (WritesRun.of_lacks hit).append (.cons (.reference hapos) (.of_lacks hs))
  exact ⟨_, .cons (.intro (Or.inl rfl) (List.cons_ne_nil _ _) hblank .nil .nil hid)
    (.cons (.intro (Or.inr rfl) (List.cons_ne_nil _ _) hblank hblank hblank hnote) .nil), by decide⟩

theorem writesText : ∃ w, WritesText "x < y && z".toList w ∧
    w = "x &lt;<!-- less --> y <![CDATA[&& ]]>&#122;".toList := by
  have hx : Lacks '<' "x " := by decide
  have hy : Lacks '<' " y " := by decide
  have hlt : Refers '<' "lt".toList := .named (by decide)
  have hdigits : IsNumeral 10 ['1', '2', '2'] 122 :=
    .append (.append (.digit (v := 1) (by decide)) (v := 2) (by decide)) (v := 2) (by decide)
  have hz : Refers 'z' ['#', '1', '2', '2'] := .decimal hdigits
  have hless : ¬ "-->".toList <:+: " less ".toList := by decide
  have hand : ¬ "]]>".toList <:+: "&& ".toList := by decide
  exact ⟨_, .of_run ((WritesRun.of_lacks hx).append (.cons (.reference hlt) .nil))
    (.comment hless (.of_run (.of_lacks hy) (.data hand (.char (.reference hz) .nil)))), by decide⟩

theorem writesElement : WritesElement statement source.toList := by
  obtain ⟨a, ha, hattributes⟩ := writesAttributes
  obtain ⟨u, hu, htext⟩ := writesText
  have hdigits : IsNumeral 16 ['3', '1'] 49 :=
    .append (.digit (v := 3) (by decide)) (v := 1) (by decide)
  have hone : WritesText ['1'] _ :=
    .char (.reference (.hexadecimal (Or.inl rfl) hdigits)) .nil
  have hblank : IsGap [' '] := by decide
  have hlimit : WritesElement ⟨"limit", [], [.text "1"]⟩ _ :=
    .paired .nil hblank (.text hone (.nil .nil)) hblank
  have hwhere : WritesElement ⟨"where", [], []⟩ _ := .closed .nil .nil
  have hnone : ¬ "-->".toList <:+: [] := by decide
  have hwritten : WritesElement statement _ :=
    .paired ha .nil (.text hu (.element .nil hwhere
      (.element (.comment hnone .nil) hlimit (.nil .nil)))) .nil
  rw [hattributes, htext] at hwritten
  refine Eq.subst ?_ hwritten
  decide +kernel

end mixed

theorem document_read_back_mixed :
    IsTree mixed.statement.markup ∧ WritesElement mixed.statement mixed.source.toList ∧
      parseDocument mixed.source = .ok mixed.statement :=
  ⟨mixed.isTree, mixed.writesElement,
    (document_read_back mixed.statement mixed.isTree).2 mixed.source mixed.writesElement⟩

end Markup

end SqlTemplate
