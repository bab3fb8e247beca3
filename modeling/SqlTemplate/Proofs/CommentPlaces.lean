import Mathlib
import SqlTemplate.Proofs.ReadTrees

/-!
# Where comments may stand

A comment in the content of an element changes nothing of what is read: not between two children,
and not within a text either, whose parts are one text again. Around the root element a comment
changes nothing if it begins neither with `>` nor with `->`. If it does, then its opener and these
are a comment by themselves, and what is left of it has to pass for something that may stand around
the root element.

## Main definitions

* `Markup.merge` : content behind content, with the texts that meet as one.
* `Markup.Within` : an element is another one, or stands in its content at some depth.
* `Markup.Between` : a place in the content of an element, with the children before and behind it.
* `Markup.AmidContent`, `Markup.BesideRoot` : places in a document.

## Main results

* `Markup.ReadsContent.append` : content is read behind content that ends before markup.
* `Markup.Between.reads_comment` : a comment in content changes nothing.
* `Markup.exists_between` : there is a place between any two children of any element.
* `Markup.isProlog_comment_iff` : the comments that may stand around the root element.
* `Markup.comment_changes_nothing` : both, for documents.
-/

namespace SqlTemplate

namespace Markup

open Text

/-- A comment with this body. -/
def comment (body : List Char) : List Char :=
  "<!--".toList ++ (body ++ "-->".toList)

/-- Content behind content, with the texts that meet as one. -/
def merge : List Markup → List Markup → List Markup
  | [], l' => l'
  | .text s :: l, l' => consText s.toList (merge l l')
  | .element name attributes children :: l, l' =>
    .element name attributes children :: merge l l'

variable {l l' : List Markup} {body s t u v w : List Char} {d e : Element}

/-! ### Content behind content -/

theorem merge_consText (s : List Char) (l l' : List Markup) :
    merge (consText s l) l' = consText s (merge l l') := by
  by_cases hs : s = []
  · subst hs
    rfl
  cases hl : startsWithText l with
  | false => rw [consText_of_startsWithText hs hl, merge, String.toList_ofList]
  | true =>
    obtain ⟨r, rest, rfl⟩ := exists_of_startsWithText hl
    rw [consText_text hs, merge, merge, String.toList_ofList, consText_append]

/-- Where no texts meet, one list stands behind the other. -/
theorem merge_eq_append (h : AreTrees (l ++ l')) : merge l l' = l ++ l' := by
  induction l with
  | nil => rfl
  | cons m l ih =>
    rw [List.cons_append, AreTrees] at h
    obtain ⟨hm, hrest, hmeet⟩ := h
    cases m with
    | text r =>
      rw [IsTree] at hm
      have htext : startsWithText (l ++ l') = false := by simpa [startsWithText] using hmeet
      rw [merge, ih hrest, consText_of_startsWithText hm htext, String.ofList_toList]
      rfl
    | element name attributes children =>
      rw [merge, ih hrest]
      rfl

/-- Content that begins with markup is read behind other content as it is read alone. -/
theorem ReadsContent.append (hw : ReadsContent l' w) (hhead : ∀ c ∈ w.head?, c = '<') :
    ∀ {l : List Markup} {u : List Char}, ReadsContent l u → ReadsContent (merge l l') (u ++ w)
  | _, _, .nil => hw
  | _, _, .comment hbody hu => by
    simpa only [List.append_assoc] using ReadsContent.comment hbody (hw.append hhead hu)
  | _, _, .data hraw hu => by
    rw [merge_consText]
    simpa only [List.append_assoc] using ReadsContent.data hraw (hw.append hhead hu)
  | _, _, .text hraw hbefore hu => by
    rw [merge_consText, List.append_assoc]
    exact .text hraw (forall_mem_head?_append hbefore hhead) (hw.append hhead hu)
  | _, _, .element he hu => by
    rw [List.append_assoc]
    exact .element he (hw.append hhead hu)

/-! ### Places in content -/

/-- An element is another one, or stands in its content at some depth. -/
inductive Within (d : Element) : Element → Prop
  | self : Within d d
  | child {e f : Element} : e.markup ∈ f.children → Within d e → Within d f

/-- The place between two texts which together are a text of an element lies in the content of `d`,
behind what is read as `l` and before what is read as `l'`. -/
inductive Between (d : Element) (l l' : List Markup) : Element → List Char → List Char → Prop
  | here {a g w w' g' : List Char} :
      IsName d.name → ReadsAttributes d.attributes a → IsGap g → ReadsContent l w →
      ReadsContent l' w' → d.children = merge l l' → IsGap g' →
      Between d l l' d ('<' :: (d.name.toList ++ (a ++ (g ++ '>' :: w))))
        (w' ++ '<' :: '/' :: (d.name.toList ++ (g' ++ ['>'])))
  | inside {name : String} {attributes : List (String × String)} {x y : List Markup} {e : Element}
      {a g w u v w' g' : List Char} :
      IsName name → ReadsAttributes attributes a → IsGap g → ReadsContent x w →
      Between d l l' e u v → ReadsContent y w' → IsGap g' →
      Between d l l' ⟨name, attributes, merge x (e.markup :: y)⟩
        ('<' :: (name.toList ++ (a ++ (g ++ '>' :: (w ++ u)))))
        (v ++ (w' ++ '<' :: '/' :: (name.toList ++ (g' ++ ['>']))))

/-- A comment in the content of an element changes nothing of what is read. -/
theorem Between.reads_comment (h : Between d l l' e u v) (hbody : ¬ "-->".toList <:+: body) :
    ReadsElement e (u ++ (comment body ++ v)) := by
  induction h with
  | @here a g w w' g' hname ha hg hw hw' hchildren hg' =>
    have hcontent := ReadsContent.append (.comment hbody hw') (head_comment _) hw
    rw [← hchildren] at hcontent
    have hreads := ReadsElement.paired hname ha hg hcontent hg'
    simpa [comment] using hreads
  | @inside name attributes x y e a g w u v w' g' hname ha hg hw _ hw' hg' ih =>
    have hhead : ∀ c ∈ (u ++ (comment body ++ v) ++ w').head?, c = '<' := by
      obtain ⟨-, r, hr⟩ := ih.exists_eq
      rw [hr]
      exact forall_mem_head?_cons _ rfl
    have hcontent := ReadsContent.append (.element ih hw') hhead hw
    have hreads := ReadsElement.paired hname ha hg hcontent hg'
    simpa using hreads

theorem markup_injective {e e' : Element} (h : e.markup = e'.markup) : e = e' := by
  cases e
  cases e'
  rw [Element.markup, Element.markup, Markup.element.injEq] at h
  obtain ⟨rfl, rfl, rfl⟩ := h
  rfl

/-- A text in front of a list goes to the front part of it, unless the list is split before that. -/
theorem exists_of_consText_eq_append {k : List Markup} (h : consText s k = l ++ l') :
    (∃ k', k = k' ++ l' ∧ consText s k' = l) ∨ l = [] ∧ startsWithText l' = true := by
  by_cases hs : s = []
  · subst hs
    exact .inl ⟨l, h, rfl⟩
  cases l with
  | nil =>
    refine .inr ⟨rfl, ?_⟩
    rw [← List.nil_append l', ← h]
    cases hk : startsWithText k with
    | false => rw [consText_of_startsWithText hs hk, startsWithText]
    | true =>
      obtain ⟨r, rest, rfl⟩ := exists_of_startsWithText hk
      rw [consText_text hs, startsWithText]
  | cons m l =>
    refine .inl ?_
    cases hk : startsWithText k with
    | false =>
      rw [consText_of_startsWithText hs hk] at h
      obtain ⟨rfl, rfl⟩ := List.cons.inj h
      refine ⟨l, rfl, consText_of_startsWithText hs ?_⟩
      cases l with
      | nil => rfl
      | cons x l => cases x <;> trivial
    | true =>
      obtain ⟨r, rest, rfl⟩ := exists_of_startsWithText hk
      rw [consText_text hs] at h
      obtain ⟨rfl, rfl⟩ := List.cons.inj h
      exact ⟨.text r :: l, rfl, consText_text hs r l⟩

/-- Content is made of the texts of its parts, with comments at the end of the first part. -/
theorem ReadsContent.exists_split {l' : List Markup} :
    ∀ {k l : List Markup} {w : List Char}, ReadsContent k w → k = l ++ l' →
      ∃ v v', w = v ++ v' ∧ ReadsContent l v ∧ ReadsContent l' v' ∧
        ∀ e y, l' = e.markup :: y → ∃ u w', v' = u ++ w' ∧ ReadsElement e u ∧ ReadsContent y w'
  | _, _, _, .nil, hk => by
    obtain ⟨rfl, rfl⟩ := List.append_eq_nil_iff.1 hk.symm
    exact ⟨[], [], rfl, .nil, .nil, nofun⟩
  | _, _, _, .comment hbody hw, hk => by
    obtain ⟨v, v', rfl, hv, hv'⟩ := hw.exists_split hk
    exact ⟨_, v', by simp only [List.append_assoc], .comment hbody hv, hv'⟩
  | _, _, _, .data hraw hw, hk => by
    rcases exists_of_consText_eq_append hk with ⟨k', hk', rfl⟩ | ⟨rfl, htext⟩
    · obtain ⟨v, v', rfl, hv, hv'⟩ := hw.exists_split hk'
      exact ⟨_, v', by simp only [List.append_assoc], .data hraw hv, hv'⟩
    · rw [List.nil_append] at hk
      refine ⟨[], _, rfl, .nil, hk ▸ .data hraw hw, ?_⟩
      rintro e y rfl
      cases htext
  | _, _, _, .text hraw hhead hw, hk => by
    rcases exists_of_consText_eq_append hk with ⟨k', hk', rfl⟩ | ⟨rfl, htext⟩
    · obtain ⟨v, v', rfl, hv, hv'⟩ := hw.exists_split hk'
      refine ⟨_, v', (List.append_assoc ..).symm, .text hraw (fun c hc => ?_) hv, hv'⟩
      exact hhead c (List.mem_head?_append_of_mem_head? hc)
    · rw [List.nil_append] at hk
      refine ⟨[], _, rfl, .nil, hk ▸ .text hraw hhead hw, ?_⟩
      rintro e y rfl
      cases htext
  | _, _, _, @ReadsContent.element e u w k he hw, hk => by
    rcases List.cons_eq_append_iff.1 hk with ⟨rfl, rfl⟩ | ⟨l, rfl, hk'⟩
    · refine ⟨[], u ++ w, rfl, .nil, .element he hw, fun e' y h => ?_⟩
      obtain ⟨hsame, rfl⟩ := List.cons.inj h
      obtain rfl := markup_injective hsame
      exact ⟨u, w, rfl, he, hw⟩
    · obtain ⟨v, v', rfl, hv, hv'⟩ := hw.exists_split hk'
      exact ⟨u ++ v, v', (List.append_assoc ..).symm, .element he hv, hv'⟩

/-- In the content of each element within another one there is a place between any of its children.
-/
theorem exists_between (hd : Within d e) (ht : ReadsElement e t) (hchildren : d.children = l ++ l')
    (hne : d.children ≠ []) : ∃ u v, t = u ++ v ∧ Between d l l' e u v := by
  induction hd generalizing t with
  | self =>
    cases ht with
    | closed => exact absurd rfl hne
    | @paired name attributes children a g w g' hname ha hg hw hg' =>
      dsimp only at hchildren
      obtain ⟨v, v', rfl, hv, hv', -⟩ := hw.exists_split hchildren
      have hmerge := merge_eq_append (hchildren ▸ hw.areTrees)
      exact ⟨_, _, by simp, .here hname ha hg hv hv' (hchildren.trans hmerge.symm) hg'⟩
  | @child e f he _ ih =>
    cases ht with
    | closed => cases he
    | @paired name attributes children a g w g' hname ha hg hw hg' =>
      obtain ⟨x, y, rfl⟩ := List.append_of_mem he
      obtain ⟨v, v', rfl, hv, -, hsplit⟩ := hw.exists_split rfl
      obtain ⟨u, w', rfl, hu, hw'⟩ := hsplit e y rfl
      obtain ⟨first, second, rfl, hplace⟩ := ih hu
      have hinside := Between.inside hname ha hg hv hplace hw' hg'
      rw [merge_eq_append hw.areTrees] at hinside
      exact ⟨_, _, by simp, hinside⟩

/-! ### Places around the root element -/

/-- A closer within an opener and the body behind it ends within the opener or in the body. -/
theorem of_infix_comment (h : "-->".toList <:+: "<!--".toList ++ body) :
    (∃ rest, body = '>' :: rest ∨ body = '-' :: '>' :: rest) ∨ "-->".toList <:+: body := by
  change ['-', '-', '>'] <:+: '<' :: '!' :: '-' :: '-' :: body at h
  simp only [List.infix_cons_iff, List.cons_prefix_cons, List.nil_prefix] at h
  rcases h with ⟨hlt, -⟩ | ⟨hmark, -⟩ | ⟨-, -, rest, hrest⟩ | ⟨-, rest, hrest⟩ | hinfix
  · cases hlt
  · cases hmark
  · exact .inl ⟨rest, .inl hrest.symm⟩
  · exact .inl ⟨rest, .inr hrest.symm⟩
  · exact .inr hinfix

/-- A comment that begins neither with `>` nor with `->` is one item. -/
theorem isItem_comment (hbody : ¬ "-->".toList <:+: body)
    (hbegin : ∀ rest, ¬ (body = '>' :: rest ∨ body = '-' :: '>' :: rest)) :
    IsItem (comment body) := by
  have hwhole : ¬ "-->".toList <:+: "<!--".toList ++ body := fun h =>
    (of_infix_comment h).elim (fun ⟨rest, hrest⟩ => hbegin rest hrest) hbody
  have hcut := cutAt?_append (m := ['-', '-']) (z := '>') (by decide) hwhole []
  refine ⟨"-->", "<!--".toList ++ body, rfl, ?_⟩
  rw [List.append_nil, List.append_assoc] at hcut
  exact hcut

/-- A comment that begins with `>` or with `->` is one that ends there, with the rest of it behind
that. -/
theorem isProlog_comment_iff_of_begins {rest : List Char}
    (h : body = '>' :: rest ∨ body = '-' :: '>' :: rest) :
    IsProlog (comment body) ↔ IsProlog (rest ++ "-->".toList) := by
  rcases h with rfl | rfl
  · have hitem : IsItem "<!-->".toList := ⟨"-->", "<!".toList, rfl, rfl⟩
    exact hitem.isProlog.append_iff
  · have hitem : IsItem "<!--->".toList := ⟨"-->", "<!-".toList, rfl, rfl⟩
    exact hitem.isProlog.append_iff

/-- The comments that may stand around the root element. -/
theorem isProlog_comment_iff (hbody : ¬ "-->".toList <:+: body) :
    IsProlog (comment body) ↔
      ∀ rest, body = '>' :: rest ∨ body = '-' :: '>' :: rest → IsProlog (rest ++ "-->".toList) := by
  by_cases hbegin : ∃ rest, body = '>' :: rest ∨ body = '-' :: '>' :: rest
  · refine ⟨fun h rest hrest => (isProlog_comment_iff_of_begins hrest).1 h, fun h => ?_⟩
    obtain ⟨rest, hrest⟩ := hbegin
    exact (isProlog_comment_iff_of_begins hrest).2 (h rest hrest)
  · rw [not_exists] at hbegin
    exact iff_of_true (isItem_comment hbody hbegin).isProlog fun rest hrest =>
      absurd hrest (hbegin rest)

/-! ### Documents -/

/-- The place between two texts which together are a document lies in the content of `d`. -/
inductive AmidContent (d : Element) (l l' : List Markup) (e : Element) :
    List Char → List Char → Prop
  | intro {p u v q : List Char} :
      IsProlog p → Between d l l' e u v → IsProlog q → AmidContent d l l' e (p ++ u) (v ++ q)

/-- The place between two texts which together are a document lies before or behind its root
element, at the edge of what stands around it or between items of that. -/
inductive BesideRoot (e : Element) : List Char → List Char → Prop
  | before {p p' u q : List Char} :
      IsProlog p → IsProlog p' → ReadsElement e u → IsProlog q →
      BesideRoot e p (p' ++ (u ++ q))
  | behind {p u q q' : List Char} :
      IsProlog p → ReadsElement e u → IsProlog q → IsProlog q' →
      BesideRoot e (p ++ (u ++ q)) q'

theorem BesideRoot.parseDocument_comment (h : BesideRoot e s t) (hbody : IsProlog (comment body)) :
    parseDocument (.ofList (s ++ (comment body ++ t))) = .ok e := by
  rw [parseDocument_eq_ok_iff, String.toList_ofList]
  cases h with
  | @before _ p' u q hp hp' hu hq =>
    have hprolog : IsProlog (s ++ (comment body ++ p')) :=
      hp.append_iff.2 (hbody.append_iff.2 hp')
    exact ⟨_, u, q, by simp, hprolog, hu, hq⟩
  | @behind p u q _ hp hu hq hq' =>
    have hepilog : IsProlog (q ++ (comment body ++ t)) :=
      hq.append_iff.2 (hbody.append_iff.2 hq')
    exact ⟨p, u, _, by simp, hp, hu, hepilog⟩

/-- A comment may be put at all places beside the root element just if it can stand there by itself.
At the end of the document nothing behind it can close what it leaves open. -/
theorem forall_besideRoot_iff {source : String} (h : parseDocument source = .ok e) :
    (∀ s t, source.toList = s ++ t → BesideRoot e s t →
        parseDocument (.ofList (s ++ (comment body ++ t))) = .ok e) ↔ IsProlog (comment body) := by
  constructor
  · intro hall
    obtain ⟨p, u, q, hsource, hp, hu, hq⟩ := parseDocument_eq_ok_iff.1 h
    have hplace : BesideRoot e (p ++ (u ++ q)) [] := .behind hp hu hq isProlog_nil
    have hread := hall _ [] (by rw [hsource, List.append_nil]) hplace
    have hbehind := (parseDocument_eq_ok_iff_of_readsElement (t := q ++ comment body) hp hu
      (by simp)).1 hread
    exact hq.append_iff.1 hbehind
  · intro hbody s t _ hplace
    exact hplace.parseDocument_comment hbody

/-- Comments in a document. In content a comment changes nothing of what is read, and there is a
place for it between any two children of any element. Around the root element it changes nothing, at
whichever place, just if what follows a closer that its opener makes with it may stand there too. -/
theorem comment_changes_nothing {source : String} (h : parseDocument source = .ok e)
    (hbody : ¬ "-->".toList <:+: body) :
    (∀ d l l' s t, source.toList = s ++ t → AmidContent d l l' e s t →
        parseDocument (.ofList (s ++ (comment body ++ t))) = .ok e) ∧
      (∀ d l l', Within d e → d.children = l ++ l' → d.children ≠ [] →
        ∃ s t, source.toList = s ++ t ∧ AmidContent d l l' e s t) ∧
      ((∀ s t, source.toList = s ++ t → BesideRoot e s t →
          parseDocument (.ofList (s ++ (comment body ++ t))) = .ok e) ↔
        ∀ rest, body = '>' :: rest ∨ body = '-' :: '>' :: rest →
          IsProlog (rest ++ "-->".toList)) := by
  refine ⟨fun d l l' s t _ hplace => ?_, fun d l l' hd hchildren hne => ?_, ?_⟩
  · obtain @⟨p, u, v, q, hp, hbetween, hq⟩ := hplace
    rw [parseDocument_eq_ok_iff, String.toList_ofList]
    exact ⟨p, _, q, by simp, hp, hbetween.reads_comment hbody, hq⟩
  · obtain ⟨p, u, q, hsource, hp, hu, hq⟩ := parseDocument_eq_ok_iff.1 h
    obtain ⟨v, v', rfl, hbetween⟩ := exists_between hd hu hchildren hne
    exact ⟨p ++ v, v' ++ q, by simp [hsource], .intro hp hbetween hq⟩
  · rw [forall_besideRoot_iff h, isProlog_comment_iff hbody]

/-! ### A body that begins with a bracket -/

namespace bracket

/-- An element with two others in it. -/
def root : Element :=
  ⟨"a", [], [.element "b" [] [], .element "c" [] []]⟩

theorem readsElement_closed (name : String) (hname : IsName name) :
    ReadsElement ⟨name, [], []⟩ ('<' :: (name.toList ++ ['/', '>'])) :=
  .closed hname .nil .nil

theorem readsContent_closed (name : String) (hname : IsName name) :
    ReadsContent [.element name [] []] ('<' :: (name.toList ++ ['/', '>'])) := by
  have hread := ReadsContent.element (readsElement_closed name hname) .nil
  rwa [List.append_nil] at hread

theorem parseDocument_root : parseDocument "<a><b/><c/></a>" = .ok root := by
  have hcontent : ReadsContent root.children "<b/><c/>".toList :=
    .element (readsElement_closed "b" (by decide)) (readsContent_closed "c" (by decide))
  have hroot : ReadsElement root "<a><b/><c/></a>".toList :=
    .paired (by decide) .nil .nil hcontent .nil
  exact parseDocument_eq_ok_iff.2 ⟨[], _, [], rfl, isProlog_nil, hroot, isProlog_nil⟩

theorem amidContent : AmidContent root [.element "b" [] []] [.element "c" [] []] root
    "<a><b/>".toList "<c/></a>".toList := by
  have hfirst := readsContent_closed "b" (by decide)
  have hsecond := readsContent_closed "c" (by decide)
  have hname : IsName root.name := by decide
  have hplace : Between root [.element "b" [] []] [.element "c" [] []] root
      "<a><b/>".toList "<c/></a>".toList :=
    .here hname .nil .nil hfirst hsecond rfl .nil
  exact .intro isProlog_nil hplace isProlog_nil

end bracket

theorem comment_changes_nothing_of_bracket :
    parseDocument "<a><b/><c/></a>" = .ok bracket.root ∧ ¬ "-->".toList <:+: ['>'] ∧
      parseDocument (.ofList ("<a><b/>".toList ++ (comment ['>'] ++ "<c/></a>".toList))) =
        .ok bracket.root :=
  ⟨bracket.parseDocument_root, by decide,
    (comment_changes_nothing bracket.parseDocument_root (by decide)).1 bracket.root _ _ _ _ rfl
      bracket.amidContent⟩

/-- Before the root element and behind it, the same comment ends within its opener. -/
theorem comment_ends_early :
    parseDocument "<a/>" = .ok ⟨"a", [], []⟩ ∧ comment ['>'] = "<!-->-->".toList ∧
      parseDocument "<!-->--><a/>" = .error (.markup 5 .expectedRoot) ∧
      parseDocument "<a/><!-->-->" = .error (.markup 9 .afterRoot) := by
  have hitem : IsItem "<!-->".toList := ⟨"-->", "<!".toList, rfl, rfl⟩
  have hread : ReadsElement ⟨"a", [], []⟩ "<a/>".toList :=
    bracket.readsElement_closed "a" (by decide)
  refine ⟨parseDocument_eq_ok_iff.2 ⟨[], _, [], rfl, isProlog_nil, hread, isProlog_nil⟩, rfl,
    ?_, ?_⟩
  · have hskip : skipProlog "<!-->--><a/>".toList = .ok "--><a/>".toList :=
      (skipProlog_item isBlank_nil hitem "--><a/>".toList).trans (skipProlog_of_none rfl)
    rw [parseDocument, hskip]
    rfl
  · have hskip : skipProlog "<!-->-->".toList = .ok "-->".toList :=
      (skipProlog_item isBlank_nil hitem "-->".toList).trans (skipProlog_of_none rfl)
    obtain ⟨_, hroot⟩ := hread.read (s := "<a/><!-->-->".toList) (t := "<!-->-->".toList) rfl
    have hbefore : skipProlog "<a/><!-->-->".toList = .ok "<a/><!-->-->".toList :=
      hread.skipProlog "<!-->-->".toList
    rw [parseDocument, hbefore]
    dsimp only [bind, Except.bind]
    rw [if_neg (by decide), hroot]
    dsimp only [Except.mapError]
    rw [hskip]
    rfl

end Markup

end SqlTemplate
