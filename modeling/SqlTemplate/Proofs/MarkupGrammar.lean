import Mathlib
import SqlTemplate.Proofs.MarkupWriting
import SqlTemplate.Proofs.Outcome

/-!
# What the reader takes

The texts that the reader takes for an attribute, for an element and for content, with what it
makes of them. It takes all of these, whatever comes behind them, and no other.

## Main definitions

* `Markup.ReadsAttribute`, `Markup.ReadsAttributes` : texts that are read as attributes.
* `Markup.ReadsElement`, `Markup.ReadsContent` : texts that are read as an element and as content.

## Main results

* `Markup.ReadsElement.read`, `Markup.ReadsContent.read` : these texts are read.
* `Markup.readsElement_of_readElement`, `Markup.readsContent_of_readContent` : only these are.
-/

namespace SqlTemplate

namespace Markup

open Text

/-! ### Texts that are read -/

/-- An attribute stands behind white space, its value in quotes of either kind. -/
inductive ReadsAttribute : String × String → List Char → Prop
  | intro {key : String} {q : Char} {before left right w : List Char} :
      q = '"' ∨ q = '\'' → before ≠ [] → IsGap before → IsName key → IsGap left → IsGap right →
      q ∉ w →
      ReadsAttribute (key, .ofList (decode w))
        (before ++ (key.toList ++ (left ++ '=' :: (right ++ q :: (w ++ [q])))))

/-- Attributes stand one after the other. -/
inductive ReadsAttributes : List (String × String) → List Char → Prop
  | nil : ReadsAttributes [] []
  | cons {a : String × String} {rest : List (String × String)} {u w : List Char} :
      ReadsAttribute a u → ReadsAttributes rest w → ReadsAttributes (a :: rest) (u ++ w)

mutual

/-- An element has one tag, or two with its content between them. -/
inductive ReadsElement : Element → List Char → Prop
  | closed {name : String} {attributes : List (String × String)} {a g : List Char} :
      IsName name → ReadsAttributes attributes a → IsGap g →
      ReadsElement ⟨name, attributes, []⟩ ('<' :: (name.toList ++ (a ++ (g ++ ['/', '>']))))
  | paired {name : String} {attributes : List (String × String)} {children : List Markup}
      {a g w g' : List Char} :
      IsName name → ReadsAttributes attributes a → IsGap g → ReadsContent children w → IsGap g' →
      ReadsElement ⟨name, attributes, children⟩
        ('<' :: (name.toList ++ (a ++ (g ++ '>' :: (w ++ '<' :: '/' ::
          (name.toList ++ (g' ++ ['>'])))))))

/-- Content consists of comments, sections of raw text, elements, and runs of text. A run goes on
up to where markup begins. -/
inductive ReadsContent : List Markup → List Char → Prop
  | nil : ReadsContent [] []
  | comment {body w : List Char} {l : List Markup} :
      ¬ "-->".toList <:+: body → ReadsContent l w →
      ReadsContent l ("<!--".toList ++ (body ++ ("-->".toList ++ w)))
  | data {raw w : List Char} {l : List Markup} :
      ¬ "]]>".toList <:+: raw → ReadsContent l w →
      ReadsContent (consText raw l) ("<![CDATA[".toList ++ (raw ++ ("]]>".toList ++ w)))
  | text {raw w : List Char} {l : List Markup} :
      '<' ∉ raw → (∀ c ∈ w.head?, c = '<') → ReadsContent l w →
      ReadsContent (consText (decode raw) l) (raw ++ w)
  | element {e : Element} {u w : List Char} {l : List Markup} :
      ReadsElement e u → ReadsContent l w → ReadsContent (e.markup :: l) (u ++ w)

end

/-- An element begins with its name. -/
theorem ReadsElement.exists_eq {e : Element} {w : List Char} (h : ReadsElement e w) :
    IsName e.name ∧ ∃ r, w = '<' :: (e.name.toList ++ r) := by
  cases h with
  | closed hname => exact ⟨hname, _, rfl⟩
  | paired hname => exact ⟨hname, _, rfl⟩

/-- An element ends with the bracket of its last tag. -/
theorem ReadsElement.exists_concat {e : Element} {w : List Char} (h : ReadsElement e w) :
    ∃ v, w = v ++ ['>'] := by
  cases h with
  | @closed name attributes a g hname ha hg =>
    exact ⟨'<' :: (name.toList ++ (a ++ (g ++ ['/']))), by simp⟩
  | @paired name attributes children a g w g' hname ha hg hw hg' =>
    exact ⟨'<' :: (name.toList ++ (a ++ (g ++ '>' :: (w ++ '<' :: '/' :: (name.toList ++ g'))))),
      by simp⟩

/-! ### Names and white space -/

theorem forall_mem_head?_cons {p : Char → Prop} {c : Char} (t : List Char) (hc : p c) :
    ∀ d ∈ (c :: t).head?, p d := by
  intro d hd
  obtain rfl := Option.some.inj hd
  exact hc

theorem forall_mem_head?_append {p : Char → Prop} {s t : List Char} (hs : ∀ c ∈ s.head?, p c)
    (ht : ∀ c ∈ t.head?, p c) : ∀ c ∈ (s ++ t).head?, p c := by
  cases s with
  | nil => exact ht
  | cons c s => exact hs

theorem isNameChar_of_isGap {c : Char} (hc : isGap c = true) : isNameChar c = false := by
  rw [isGap] at hc
  simp only [Bool.or_eq_true, beq_iff_eq] at hc
  rcases hc with ((rfl | rfl) | rfl) | rfl <;> decide

theorem length_skipGap_lt {g s : List Char} (hg : IsGap g) (hne : g ≠ [])
    (hs : ∀ c ∈ s.head?, isGap c = false) : (skipGap (g ++ s)).length < (g ++ s).length := by
  have hpos := List.length_pos_iff.2 hne
  rw [skipGap_append hg hs, List.length_append]
  omega

/-- A name begins with no white space. -/
theorem IsName.isGap_head {name : String} (h : IsName name) (t : List Char) :
    ∀ c ∈ (name.toList ++ t).head?, isGap c = false := by
  obtain ⟨c, s, hs, hc⟩ := h.exists_cons
  intro d hd
  rw [hs] at hd
  obtain rfl := Option.some.inj hd
  by_contra hgap
  rw [isNameChar_of_isGap (by simpa using hgap)] at hc
  cases hc

/-- White space ends a name, and so does what follows where there is none. -/
theorem isNameChar_head_of_isGap {g s : List Char} (hg : IsGap g)
    (hs : g = [] → ∀ c ∈ s.head?, isNameChar c = false) :
    ∀ c ∈ (g ++ s).head?, isNameChar c = false := by
  cases g with
  | nil => exact hs rfl
  | cons d g =>
    intro c hc
    obtain rfl := Option.some.inj hc
    exact isNameChar_of_isGap (hg _ List.mem_cons_self)

/-! The readers are stated on a text that is equal to what is written, since what they return is
about that very text. -/

/-- A name is read up to a character that cannot be in it. -/
theorem readName_of {name : String} {s t : List Char} (hs : s = name.toList ++ t)
    (hname : IsName name) (ht : ∀ c ∈ t.head?, isNameChar c = false) :
    ∃ h, readName s = .ok ⟨name, t, h⟩ := by
  subst hs
  obtain ⟨htake, hdrop⟩ := takeWhile_dropWhile_append hname.2 ht
  have hshorter : t.length < (name.toList ++ t).length := by
    have := List.length_pos_iff.2 hname.1
    rw [List.length_append]
    omega
  refine ⟨hshorter, ?_⟩
  rw [readName, dif_neg (by rw [htake]; exact hname.1)]
  refine congrArg Except.ok (Reading.ext ?_ hdrop)
  dsimp only
  rw [htake, String.ofList_toList]

theorem readChar_of {c : Char} {s t : List Char} (hs : s = c :: t) :
    ∃ h, readChar c s = .ok ⟨(), t, h⟩ := by
  subst hs
  refine ⟨Nat.lt_succ_self _, ?_⟩
  rw [readChar, Reading.char?, if_pos rfl]

/-! ### Attributes -/

theorem readQuoted_of {q : Char} {s w t : List Char} (hq : q = '"' ∨ q = '\'')
    (hs : s = q :: (w ++ q :: t)) (hw : q ∉ w) :
    ∃ h, readQuoted s = some (.ok ⟨.ofList (decode w), t, h⟩) := by
  subst hs
  have hcut : cutAtChar? q (w ++ q :: t) = some (w, t) := cutAtChar?_append hw
  have hshorter : t.length < (q :: (w ++ q :: t)).length := by
    simp only [List.length_cons, List.length_append]
    omega
  refine ⟨hshorter, ?_⟩
  rw [readQuoted, if_pos hq]
  split
  · rename_i written rest h
    obtain ⟨rfl, rfl⟩ := Prod.mk.inj (Option.some.inj (hcut.symm.trans h))
    rfl
  · rename_i h
    rw [hcut] at h
    cases h

theorem ReadsAttribute.read {a : String × String} {u : List Char} (h : ReadsAttribute a u)
    (t : List Char) : ∃ h, readAttribute (u ++ t) = .present ⟨a, t, h⟩ := by
  obtain @⟨key, q, before, left, right, w, hq, hne, hbefore, hkey, hleft, hright, hw⟩ := h
  have hwritten : before ++ (key.toList ++ (left ++ '=' :: (right ++ q :: (w ++ [q])))) ++ t =
      before ++ (key.toList ++ (left ++ '=' :: (right ++ q :: (w ++ q :: t)))) := by
    simp only [List.append_assoc, List.cons_append, List.nil_append]
  rw [hwritten]
  have hquote : isGap q = false := by rcases hq with rfl | rfl <;> decide
  have hequal : isGap '=' = false := by decide
  have hkeyGap := hkey.isGap_head (left ++ '=' :: (right ++ q :: (w ++ q :: t)))
  obtain ⟨h₁, hname⟩ := readName_of (skipGap_append hbefore hkeyGap) hkey
    (isNameChar_head_of_isGap hleft fun _ => forall_mem_head?_cons _ (by decide))
  obtain ⟨h₂, hequals⟩ := readChar_of
    (skipGap_append hleft (forall_mem_head?_cons (right ++ q :: (w ++ q :: t)) hequal))
  obtain ⟨h₃, hquoted⟩ :=
    readQuoted_of hq (skipGap_append hright (forall_mem_head?_cons _ hquote)) hw
  have hshorter : t.length <
      (before ++ (key.toList ++ (left ++ '=' :: (right ++ q :: (w ++ q :: t))))).length := by
    simp only [List.length_append, List.length_cons]
    omega
  refine ⟨hshorter, ?_⟩
  rw [readAttribute, if_pos (length_skipGap_lt hbefore hne hkeyGap), hname]
  dsimp only
  rw [hequals]
  dsimp only
  rw [hquoted]

/-- The end of a tag, with white space before it, is no attribute. -/
theorem readAttribute_of_end {g : List Char} {c : Char} (t : List Char) (hg : IsGap g)
    (hgap : isGap c = false) (hname : isNameChar c = false) :
    readAttribute (g ++ c :: t) = .absent := by
  have hskip : skipGap (g ++ c :: t) = c :: t :=
    skipGap_append hg (forall_mem_head?_cons t hgap)
  have hnone : (skipGap (g ++ c :: t)).takeWhile isNameChar = [] := by
    rw [hskip, List.takeWhile_cons_of_neg (by simpa using hname)]
  rw [readAttribute, readName, dif_pos hnone]
  exact ite_self _

/-- Attributes are read up to the end of the tag. -/
theorem ReadsAttributes.read {attributes : List (String × String)} {a g : List Char} {c : Char}
    (t : List Char) (ha : ReadsAttributes attributes a) (hg : IsGap g) (hgap : isGap c = false)
    (hname : isNameChar c = false) :
    ∃ h, readAttributes (a ++ (g ++ c :: t)) = .ok (attributes, ⟨g ++ c :: t, h⟩) := by
  induction ha with
  | nil =>
    rw [List.nil_append]
    refine ⟨Nat.le_refl _, ?_⟩
    rw [readAttributes, readAttribute_of_end t hg hgap hname]
  | cons hu _ ih =>
    obtain ⟨hrest, hread⟩ := ih
    rw [List.append_assoc]
    obtain ⟨hshorter, hfirst⟩ := hu.read _
    refine ⟨Nat.le_trans hrest (Nat.le_of_lt hshorter), ?_⟩
    rw [readAttributes, hfirst]
    dsimp only
    rw [hread]
    rfl

/-- Attributes begin with white space, which ends the name of the tag. -/
theorem ReadsAttributes.isNameChar_head {attributes : List (String × String)}
    {a g : List Char} {c : Char} (t : List Char) (ha : ReadsAttributes attributes a)
    (hg : IsGap g) (hname : isNameChar c = false) :
    ∀ d ∈ (a ++ (g ++ c :: t)).head?, isNameChar d = false := by
  cases ha with
  | nil =>
    rw [List.nil_append]
    exact isNameChar_head_of_isGap hg fun _ => forall_mem_head?_cons t hname
  | cons hu _ =>
    obtain ⟨_, hne, hbefore, _, _, _⟩ := hu
    rw [List.append_assoc, List.append_assoc]
    exact isNameChar_head_of_isGap hbefore fun hnil => absurd hnil hne

/-! ### The parts of content -/

/-- A closing tag ends content, and so does the end of the text. -/
def IsEnd (t : List Char) : Prop :=
  t = [] ∨ ∃ r, t = '<' :: '/' :: r

/-- Where markup begins, or nothing is left, before an end of content, markup begins behind it. -/
theorem IsEnd.head_append {w t : List Char} (ht : IsEnd t) (hw : ∀ c ∈ w.head?, c = '<') :
    ∀ c ∈ (w ++ t).head?, c = '<' :=
  forall_mem_head?_append hw (by rcases ht with rfl | ⟨r, rfl⟩ <;> simp)

theorem head_comment (t : List Char) : ∀ c ∈ ("<!--".toList ++ t).head?, c = '<' :=
  fun _ hc => (Option.some.inj hc).symm

theorem head_data (t : List Char) : ∀ c ∈ ("<![CDATA[".toList ++ t).head?, c = '<' :=
  fun _ hc => (Option.some.inj hc).symm

/-- The part of content that a character begins, where it begins neither a comment nor a section of
raw text. -/
theorem part_cons {c : Char} {r : List Char} (hcomment : after? "<!--".toList (c :: r) = none)
    (hdata : after? "<![CDATA[".toList (c :: r) = none) :
    part (c :: r) =
      if c = '<' then if r.head? = some '/' then .done else .tag
      else .text (c :: r.takeWhile (· != '<')) (r.dropWhile (· != '<'))
        (length_dropWhile_lt_cons (· != '<') c r) := by
  rw [part]
  split
  · rename_i body h
    rw [hcomment] at h
    cases h
  · split
    · rename_i body h
      rw [hdata] at h
      cases h
    · rfl

theorem part_of_isEnd {t : List Char} (ht : IsEnd t) : part t = .done := by
  rcases ht with rfl | ⟨r, rfl⟩
  · rfl
  · rw [part_cons rfl rfl]
    rfl

/-- An opening tag goes on with the first character of a name. -/
theorem part_of_tag {c : Char} (r : List Char) (hc : isNameChar c = true) :
    part ('<' :: c :: r) = .tag := by
  have hne (d : Char) (hd : isNameChar d = false) : d ≠ c := by
    rintro rfl
    rw [hd] at hc
    cases hc
  have hnone (head : List Char) : after? ('<' :: '!' :: head) ('<' :: c :: r) = none := by
    rw [after?, if_pos rfl, after?, if_neg (hne '!' (by decide))]
  rw [part_cons (hnone "--".toList) (hnone "[CDATA[".toList), if_pos rfl, if_neg]
  exact fun h => hne '/' (by decide) (Option.some.inj h).symm

/-- A text goes on up to the next tag. -/
theorem part_of_text {s t : List Char} (hne : s ≠ []) (hs : ∀ c ∈ s, c ≠ '<')
    (ht : ∀ c ∈ t.head?, c = '<') : ∃ h, part (s ++ t) = .text s t h := by
  cases s with
  | nil => exact absurd rfl hne
  | cons c s =>
    have hc : '<' ≠ c := (hs c List.mem_cons_self).symm
    have hnone (head : List Char) : after? ('<' :: head) (c :: (s ++ t)) = none := by
      rw [after?, if_neg hc]
    obtain ⟨htake, hdrop⟩ := takeWhile_dropWhile_append (p := (· != '<')) (s := s) (t := t)
      (fun d hd => by simpa using hs d (List.mem_cons_of_mem _ hd))
      (fun d hd => by simp [ht d hd])
    refine ⟨by rw [List.length_append, List.length_cons]; omega, ?_⟩
    change part (c :: (s ++ t)) = _
    rw [part_cons (hnone "!--".toList) (hnone "![CDATA[".toList), if_neg hc.symm]
    simp only [htake, hdrop]

theorem part_of_comment {body : List Char} (t : List Char) (hbody : ¬ "-->".toList <:+: body) :
    ∃ h, part ("<!--".toList ++ (body ++ ("-->".toList ++ t))) = .comment t h := by
  have hcut : cutAt? "-->".toList (body ++ ("-->".toList ++ t)) = some (body, t) :=
    cutAt?_append (m := ['-', '-']) (by decide) hbody t
  have hshorter : t.length < ("<!--".toList ++ (body ++ ("-->".toList ++ t))).length := by
    simp only [List.length_append]
    have : "<!--".toList.length = 4 := by decide
    omega
  refine ⟨hshorter, ?_⟩
  rw [part]
  split
  · rename_i rest h
    obtain rfl := List.append_cancel_left (after?_eq_some_iff.1 h)
    split
    · rename_i before tail h'
      obtain ⟨-, rfl⟩ := Prod.mk.inj (Option.some.inj (hcut.symm.trans h'))
      rfl
    · rename_i h'
      rw [hcut] at h'
      cases h'
  · rename_i h
    rw [after?_eq_some_iff.2 rfl] at h
    cases h

theorem part_of_data {raw : List Char} (t : List Char) (hraw : ¬ "]]>".toList <:+: raw) :
    ∃ h, part ("<![CDATA[".toList ++ (raw ++ ("]]>".toList ++ t))) = .data raw t h := by
  have hcut : cutAt? "]]>".toList (raw ++ ("]]>".toList ++ t)) = some (raw, t) :=
    cutAt?_append (m := [']', ']']) (by decide) hraw t
  have hcomment : after? "<!--".toList
      ("<![CDATA[".toList ++ (raw ++ ("]]>".toList ++ t))) = none := rfl
  have hshorter : t.length < ("<![CDATA[".toList ++ (raw ++ ("]]>".toList ++ t))).length := by
    simp only [List.length_append]
    have : "<![CDATA[".toList.length = 9 := by decide
    omega
  refine ⟨hshorter, ?_⟩
  rw [part]
  split
  · rename_i h
    rw [hcomment] at h
    cases h
  split
  · rename_i rest h
    obtain rfl := List.append_cancel_left (after?_eq_some_iff.1 h)
    split
    · rename_i before tail h'
      obtain ⟨rfl, rfl⟩ := Prod.mk.inj (Option.some.inj (hcut.symm.trans h'))
      rfl
    · rename_i h'
      rw [hcut] at h'
      cases h'
  · rename_i h
    rw [after?_eq_some_iff.2 rfl] at h
    cases h

/-! ### Content from its parts -/

theorem readContent_of_comment {s rest t : List Char} {l : List Markup}
    {h : rest.length < s.length} (hpart : part s = .comment rest h)
    (hread : ∃ h, readContent rest = .ok (l, ⟨t, h⟩)) :
    ∃ h, readContent s = .ok (l, ⟨t, h⟩) := by
  obtain ⟨hle, hread⟩ := hread
  refine ⟨Nat.le_trans hle (Nat.le_of_lt h), ?_⟩
  rw [readContent, hpart]
  dsimp only
  rw [hread]
  rfl

theorem readContent_of_data {s raw rest t : List Char} {l : List Markup}
    {h : rest.length < s.length} (hpart : part s = .data raw rest h)
    (hread : ∃ h, readContent rest = .ok (l, ⟨t, h⟩)) :
    ∃ h, readContent s = .ok (consText raw l, ⟨t, h⟩) := by
  obtain ⟨hle, hread⟩ := hread
  refine ⟨Nat.le_trans hle (Nat.le_of_lt h), ?_⟩
  rw [readContent, hpart]
  dsimp only
  rw [hread]
  rfl

theorem readContent_of_text {s raw rest t : List Char} {l : List Markup}
    {h : rest.length < s.length} (hpart : part s = .text raw rest h)
    (hread : ∃ h, readContent rest = .ok (l, ⟨t, h⟩)) :
    ∃ h, readContent s = .ok (consText (decode raw) l, ⟨t, h⟩) := by
  obtain ⟨hle, hread⟩ := hread
  refine ⟨Nat.le_trans hle (Nat.le_of_lt h), ?_⟩
  rw [readContent, hpart]
  dsimp only
  rw [hread]
  rfl

theorem readContent_of_tag {s rest t : List Char} {e : Element} {l : List Markup}
    (hpart : part s = .tag) (helement : ∃ h, readElement s = .ok ⟨e, rest, h⟩)
    (hread : ∃ h, readContent rest = .ok (l, ⟨t, h⟩)) :
    ∃ h, readContent s = .ok (e.markup :: l, ⟨t, h⟩) := by
  obtain ⟨hlt, helement⟩ := helement
  obtain ⟨hle, hread⟩ := hread
  refine ⟨Nat.le_trans hle (Nat.le_of_lt hlt), ?_⟩
  rw [readContent, hpart]
  dsimp only [bind, Except.bind]
  rw [helement]
  dsimp only
  rw [hread]
  rfl

/-! ### Elements and content -/

/-- The tag that opens an element is read up to its end. -/
theorem readOpening_of {name : String} {attributes : List (String × String)} {a g : List Char}
    {c : Char} (u : List Char) (hname : IsName name) (ha : ReadsAttributes attributes a)
    (hg : IsGap g) (hc : c = '/' ∨ c = '>') :
    ∃ h₁ h₂ h₃,
      readChar '<' ('<' :: (name.toList ++ (a ++ (g ++ c :: u)))) =
        .ok ⟨(), name.toList ++ (a ++ (g ++ c :: u)), h₁⟩ ∧
      readName (name.toList ++ (a ++ (g ++ c :: u))) = .ok ⟨name, a ++ (g ++ c :: u), h₂⟩ ∧
      readAttributes (a ++ (g ++ c :: u)) = .ok (attributes, ⟨g ++ c :: u, h₃⟩) ∧
      skipGap (g ++ c :: u) = c :: u := by
  have hgap : isGap c = false := by rcases hc with rfl | rfl <;> decide
  have hend : isNameChar c = false := by rcases hc with rfl | rfl <;> decide
  obtain ⟨h₁, hopening⟩ := readChar_of (s := '<' :: (name.toList ++ (a ++ (g ++ c :: u)))) rfl
  obtain ⟨h₂, htag⟩ := readName_of rfl hname (ha.isNameChar_head u hg hend)
  obtain ⟨h₃, hread⟩ := ha.read u hg hgap hend
  exact ⟨h₁, h₂, h₃, hopening, htag, hread, skipGap_append hg (forall_mem_head?_cons u hgap)⟩

theorem readElement_of_closed {name : String} {attributes : List (String × String)}
    {s a g t : List Char} (hs : s = '<' :: (name.toList ++ (a ++ (g ++ '/' :: '>' :: t))))
    (hname : IsName name) (ha : ReadsAttributes attributes a) (hg : IsGap g) :
    ∃ h, readElement s = .ok ⟨⟨name, attributes, []⟩, t, h⟩ := by
  subst hs
  obtain ⟨h₁, h₂, h₃, hopening, htag, hread, hskip⟩ :=
    readOpening_of ('>' :: t) hname ha hg (Or.inl rfl)
  have hshorter : t.length <
      ('<' :: (name.toList ++ (a ++ (g ++ '/' :: '>' :: t)))).length := by
    simp only [List.length_cons, List.length_append]
    omega
  refine ⟨hshorter, ?_⟩
  rw [readElement, hopening]
  dsimp only [bind, Except.bind]
  rw [htag]
  dsimp only [bind, Except.bind]
  rw [hread]
  dsimp only [bind, Except.bind]
  split
  · rename_i after hself
    rw [hskip] at hself
    obtain rfl : t = after := Option.some.inj hself
    rfl
  · rename_i hself
    rw [hskip] at hself
    cases hself

theorem readElement_of_paired {name : String} {attributes : List (String × String)}
    {children : List Markup} {s a g u g' t : List Char}
    (hs : s = '<' :: (name.toList ++ (a ++ (g ++ '>' :: u)))) (hname : IsName name)
    (ha : ReadsAttributes attributes a) (hg : IsGap g)
    (hg' : IsGap g') (hcontent : ∃ h, readContent u =
      .ok (children, ⟨'<' :: '/' :: (name.toList ++ (g' ++ '>' :: t)), h⟩)) :
    ∃ h, readElement s = .ok ⟨⟨name, attributes, children⟩, t, h⟩ := by
  subst hs
  obtain ⟨h₁, h₂, h₃, hopening, htag, hread, hskip⟩ :=
    readOpening_of u hname ha hg (Or.inr rfl)
  obtain ⟨h₄, hcontent⟩ := hcontent
  obtain ⟨h₅, hbracket⟩ := readChar_of hskip
  have hgap : isGap '>' = false := by decide
  obtain ⟨h₆, hclose⟩ := readName_of (t := g' ++ '>' :: t) rfl hname
    (isNameChar_head_of_isGap hg' fun _ => forall_mem_head?_cons t (by decide))
  obtain ⟨h₇, hfinal⟩ := readChar_of (skipGap_append hg' (forall_mem_head?_cons t hgap))
  have hshorter : t.length < ('<' :: (name.toList ++ (a ++ (g ++ '>' :: u)))).length := by
    simp only [List.length_cons, List.length_append] at h₄ ⊢
    omega
  refine ⟨hshorter, ?_⟩
  rw [readElement, hopening]
  dsimp only [bind, Except.bind]
  rw [htag]
  dsimp only [bind, Except.bind]
  rw [hread]
  dsimp only [bind, Except.bind]
  split
  · rename_i after hself
    rw [hskip] at hself
    cases hself
  rw [hbracket]
  dsimp only
  rw [hcontent]
  dsimp only
  split
  · rename_i hunclosed
    cases hunclosed
  rename_i after hafter
  obtain rfl : name.toList ++ (g' ++ '>' :: t) = after := Option.some.inj hafter
  rw [hclose]
  dsimp only
  rw [if_neg (not_not.2 rfl), hfinal]
  rfl

theorem part_of_name {name : String} (hname : IsName name) (r : List Char) :
    part ('<' :: (name.toList ++ r)) = .tag := by
  obtain ⟨c, s, hs, hc⟩ := hname.exists_cons
  rw [hs]
  exact part_of_tag _ hc

mutual

/-- What is a text of an element is read as that element. -/
theorem ReadsElement.read {e : Element} {u : List Char} :
    ReadsElement e u → ∀ {s t : List Char}, s = u ++ t → ∃ h, readElement s = .ok ⟨e, t, h⟩
  | .closed hname ha hg, _, _, hs => readElement_of_closed (by simp [hs]) hname ha hg
  | .paired hname ha hg hw hg', _, _, hs =>
    readElement_of_paired (by simp [hs]) hname ha hg hg' (hw.read (Or.inr ⟨_, rfl⟩) rfl)

/-- What is a text of content is read as that content, up to a closing tag or to the end. -/
theorem ReadsContent.read {l : List Markup} {w : List Char} :
    ReadsContent l w → ∀ {s t : List Char}, IsEnd t → s = w ++ t →
      ∃ h, readContent s = .ok (l, ⟨t, h⟩)
  | .nil, s, t, ht, hs => by
    obtain rfl : s = t := hs
    refine ⟨Nat.le_refl _, ?_⟩
    rw [readContent, part_of_isEnd ht]
  | @ReadsContent.comment body w l hbody hw, s, t, ht, hs => by
    rw [List.append_assoc, List.append_assoc, List.append_assoc] at hs
    subst hs
    obtain ⟨_, hpart⟩ := part_of_comment (w ++ t) hbody
    exact readContent_of_comment hpart (hw.read ht rfl)
  | @ReadsContent.data raw w l hraw hw, s, t, ht, hs => by
    rw [List.append_assoc, List.append_assoc, List.append_assoc] at hs
    subst hs
    obtain ⟨_, hpart⟩ := part_of_data (w ++ t) hraw
    exact readContent_of_data hpart (hw.read ht rfl)
  | @ReadsContent.text raw w l hraw hhead hw, s, t, ht, hs => by
    rw [List.append_assoc] at hs
    subst hs
    by_cases hne : raw = []
    · subst hne
      rw [decode]
      exact hw.read ht rfl
    · have hmarkup : ∀ c ∈ (w ++ t).head?, c = '<' := ht.head_append hhead
      obtain ⟨_, hpart⟩ := part_of_text hne (fun c hc => ne_of_mem_of_not_mem hc hraw) hmarkup
      exact readContent_of_text hpart (hw.read ht rfl)
  | @ReadsContent.element e u w l he hw, s, t, ht, hs => by
    rw [List.append_assoc] at hs
    obtain ⟨hname, r, hr⟩ := he.exists_eq
    have htag : part s = .tag := by
      rw [hs, hr, List.cons_append, List.append_assoc]
      exact part_of_name hname _
    exact readContent_of_tag htag (he.read hs) (hw.read ht rfl)

end

end Markup

end SqlTemplate
