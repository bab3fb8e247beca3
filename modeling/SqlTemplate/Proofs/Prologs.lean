import Mathlib
import SqlTemplate.Proofs.ReadMarkup
import SqlTemplate.Proofs.Trimming

/-!
# Around the root element

Before and after the root element of a document there may be blanks, declarations, comments and
document types. Each of these goes on up to the first place where its closer stands, counted from
where it begins. So a comment ends within its own opener if `>` or `->` follows it there.

## Main definitions

* `Markup.IsItem` : a declaration, a comment or a document type that is complete.
* `Markup.IsProlog` : complete items with blanks around them.

## Main results

* `Markup.skipProlog_cases` : one step of passing over it.
* `Markup.skipProlog_append` : what may stand around the root element is passed over.
* `Markup.exists_of_skipProlog` : only this is passed over.
* `Markup.parseDocument_eq_ok_iff` : the documents that are read.
-/

namespace SqlTemplate

namespace Markup

open Text

/-- Text that is blank. -/
def IsBlank (s : List Char) : Prop :=
  ∀ c ∈ s, isBlank c = true

/-- A declaration, a comment or a document type that is complete: its closer stands at its end, and
nowhere before. -/
def IsItem (s : List Char) : Prop :=
  ∃ closer before, prologCloser? s = some closer ∧ cutAt? closer.toList s = some (before, [])

/-- Complete items with blanks around them. -/
inductive IsProlog : List Char → Prop
  | blanks {b : List Char} : IsBlank b → IsProlog b
  | item {b s p : List Char} : IsBlank b → IsItem s → IsProlog p → IsProlog (b ++ (s ++ p))

variable {s t b p rest : List Char} {closer : String}

theorem isBlank_nil : IsBlank [] := nofun

theorem isProlog_nil : IsProlog [] :=
  .blanks isBlank_nil

/-! ### Items -/

/-- An item begins with a bracket. -/
theorem head?_of_prologCloser? (h : prologCloser? s = some closer) : s.head? = some '<' := by
  rw [prologCloser?] at h
  have hhead {head : List Char} (hsome : (after? ('<' :: head) s).isSome = true) :
      s.head? = some '<' := by
    obtain ⟨r, hr⟩ := Option.isSome_iff_exists.1 hsome
    rw [after?_eq_some_iff.1 hr]
    rfl
  split at h
  · exact hhead ‹_›
  split at h
  · exact hhead ‹_›
  split at h
  · exact hhead ‹_›
  · cases h

/-- Each closer ends with the same bracket, which it has nowhere else. -/
theorem exists_closer_eq (h : prologCloser? s = some closer) :
    ∃ m, closer.toList = m ++ ['>'] ∧ '>' ∉ m := by
  rw [prologCloser?] at h
  split at h
  · obtain rfl := Option.some.inj h
    exact ⟨['?'], by decide⟩
  split at h
  · obtain rfl := Option.some.inj h
    exact ⟨['-', '-'], by decide⟩
  split at h
  · obtain rfl := Option.some.inj h
    exact ⟨[], by decide⟩
  · cases h

theorem closer_ne_nil (h : prologCloser? s = some closer) : closer.toList ≠ [] := by
  obtain ⟨m, hm, -⟩ := exists_closer_eq h
  rw [hm]
  exact List.append_ne_nil_of_right_ne_nil m (List.cons_ne_nil '>' [])

/-- What a text begins with is seen from the part of it that its closer ends. -/
theorem prologCloser?_append (hmem : '>' ∈ s) (t : List Char) :
    prologCloser? (s ++ t) = prologCloser? s := by
  rw [prologCloser?, prologCloser?, isSome_after?_append hmem (by decide),
    isSome_after?_append hmem (by decide), isSome_after?_append hmem (by decide)]

/-- The text up to the first closer is an item. -/
theorem isItem_of_cutAt? {before : List Char} (h : prologCloser? s = some closer)
    (hcut : cutAt? closer.toList s = some (before, rest)) :
    s = before ++ closer.toList ++ rest ∧ IsItem (before ++ closer.toList) := by
  obtain ⟨m, hm, hlast⟩ := exists_closer_eq h
  have hs := eq_of_cutAt? hcut
  have hbefore := not_infix_of_cutAt? (closer_ne_nil h) hcut
  have hmem : '>' ∈ before ++ closer.toList := by
    simp [hm]
  refine ⟨hs, closer, before, ?_, ?_⟩
  · rw [← h, ← prologCloser?_append hmem rest, ← hs]
  · rw [hm] at hbefore ⊢
    have hfirst := cutAt?_append hlast hbefore []
    rwa [List.append_nil] at hfirst

theorem IsItem.exists_concat (h : IsItem s) : ∃ u, s = u ++ ['>'] := by
  obtain ⟨closer, before, hcloser, hcut⟩ := h
  obtain ⟨m, hm, -⟩ := exists_closer_eq hcloser
  have hs := eq_of_cutAt? hcut
  rw [hm, List.append_nil, ← List.append_assoc] at hs
  exact ⟨_, hs⟩

theorem IsItem.isProlog (h : IsItem s) : IsProlog s := by
  have hitem := IsProlog.item isBlank_nil h isProlog_nil
  rwa [List.nil_append, List.append_nil] at hitem

/-! ### Passing over items -/

theorem trimStart_blank_append (hb : IsBlank b) (t : List Char) :
    trimStart (b ++ t) = trimStart t :=
  List.dropWhile_append_of_pos hb

theorem trimStart_of_prologCloser? (h : prologCloser? s = some closer) : trimStart s = s := by
  refine trimStart_of_head? fun c hc => ?_
  rw [head?_of_prologCloser? h] at hc
  obtain rfl := Option.some.inj hc
  decide

theorem skipProlog_of_none (h : prologCloser? (trimStart s) = none) :
    skipProlog s = .ok (trimStart s) := by
  rw [skipProlog]
  split
  · rfl
  · rename_i closer hsome
    rw [h] at hsome
    cases hsome

theorem skipProlog_of_some {before : List Char} (h : prologCloser? (trimStart s) = some closer)
    (hcut : cutAt? closer.toList (trimStart s) = some (before, rest)) :
    skipProlog s = skipProlog rest := by
  rw [skipProlog]
  split
  · rename_i hnone
    rw [h] at hnone
    cases hnone
  · rename_i closer' hsome
    obtain rfl := Option.some.inj (h.symm.trans hsome)
    split
    · rename_i before' rest' hcut'
      obtain ⟨-, rfl⟩ := Prod.mk.inj (Option.some.inj (hcut.symm.trans hcut'))
      rfl
    · rename_i hnone
      rw [hcut] at hnone
      cases hnone

theorem skipProlog_of_unterminated (h : prologCloser? (trimStart s) = some closer)
    (hcut : cutAt? closer.toList (trimStart s) = none) :
    skipProlog s =
      .error (.markup (byteLength s - byteLength (trimStart s)) (.unterminated closer)) := by
  rw [skipProlog]
  split
  · rename_i hnone
    rw [h] at hnone
    cases hnone
  · rename_i closer' hsome
    obtain rfl := Option.some.inj (h.symm.trans hsome)
    split
    · rename_i hcut'
      rw [hcut] at hcut'
      cases hcut'
    · rfl

theorem skipProlog_blank_iff (hb : IsBlank b) :
    skipProlog (b ++ t) = .ok rest ↔ skipProlog t = .ok rest := by
  have htrim := trimStart_blank_append hb t
  cases hcloser : prologCloser? (trimStart t) with
  | none => rw [skipProlog_of_none hcloser, skipProlog_of_none (by rwa [htrim]), htrim]
  | some closer =>
    cases hcut : cutAt? closer.toList (trimStart t) with
    | some cut =>
      rw [skipProlog_of_some hcloser hcut, skipProlog_of_some (by rwa [htrim]) (by rwa [htrim])]
    | none =>
      rw [skipProlog_of_unterminated hcloser hcut,
        skipProlog_of_unterminated (by rwa [htrim]) (by rwa [htrim])]
      exact iff_of_false nofun nofun

theorem skipProlog_item (hb : IsBlank b) (hs : IsItem s) (t : List Char) :
    skipProlog (b ++ (s ++ t)) = skipProlog t := by
  obtain ⟨u, hu⟩ := hs.exists_concat
  obtain ⟨closer, before, hcloser, hcut⟩ := hs
  rw [← prologCloser?_append (by simp [hu]) t] at hcloser
  have htrim : trimStart (b ++ (s ++ t)) = s ++ t := by
    rw [trimStart_blank_append hb, trimStart_of_prologCloser? hcloser]
  have hcut' := cutAt?_append_right hcut t
  exact skipProlog_of_some (by rwa [htrim]) (by rwa [htrim])

/-- What may stand around the root element is passed over. -/
theorem skipProlog_append (hp : IsProlog p) (t : List Char) :
    skipProlog (p ++ t) = .ok rest ↔ skipProlog t = .ok rest := by
  induction hp with
  | blanks hb => exact skipProlog_blank_iff hb
  | item hb hs _ ih =>
    rw [List.append_assoc, List.append_assoc, skipProlog_item hb hs]
    exact ih

/-- One step: behind blanks the text goes on with something else, with an item that is not closed, or
with an item that is passed over. -/
theorem skipProlog_cases (s : List Char) :
    ∃ b rest, s = b ++ rest ∧ IsBlank b ∧
      ((prologCloser? rest = none ∧ (∀ c ∈ rest.head?, isBlank c = false) ∧
          skipProlog s = .ok rest) ∨
        (∃ closer, prologCloser? rest = some closer ∧ ¬ closer.toList <:+: rest ∧
          skipProlog s = .error (.markup (byteLength b) (.unterminated closer))) ∨
        ∃ item tail, rest = item ++ tail ∧ IsItem item ∧ tail.length < s.length ∧
          skipProlog s = skipProlog tail) := by
  have hs : s = s.takeWhile isBlank ++ trimStart s := List.takeWhile_append_dropWhile.symm
  refine ⟨_, trimStart s, hs, fun c hc => List.mem_takeWhile_imp hc, ?_⟩
  cases hcloser : prologCloser? (trimStart s) with
  | none => exact .inl ⟨rfl, head_dropWhile isBlank s, skipProlog_of_none hcloser⟩
  | some closer =>
    cases hcut : cutAt? closer.toList (trimStart s) with
    | none =>
      have hlength := congrArg byteLength hs
      rw [byteLength_append] at hlength
      refine .inr (.inl ⟨closer, rfl, cutAt?_eq_none_iff.1 hcut, ?_⟩)
      rw [skipProlog_of_unterminated hcloser hcut, hlength, Nat.add_sub_cancel]
    | some cut =>
      obtain ⟨hitem, hcomplete⟩ := isItem_of_cutAt? hcloser hcut
      have hlength := length_of_cutAt? hcut
      have hpos := List.length_pos_iff.2 (closer_ne_nil hcloser)
      have hle : (trimStart s).length ≤ s.length := length_dropWhile_le isBlank s
      exact .inr (.inr ⟨_, cut.2, hitem, hcomplete, by omega, skipProlog_of_some hcloser hcut⟩)

/-- Only this is passed over, up to where neither a blank nor an item begins. -/
theorem exists_of_skipProlog (s : List Char) {rest : List Char} (h : skipProlog s = .ok rest) :
    ∃ p, s = p ++ rest ∧ IsProlog p ∧ prologCloser? rest = none ∧
      ∀ c ∈ rest.head?, isBlank c = false := by
  obtain ⟨b, t, hs, hb, ⟨hnone, hhead, hstep⟩ | ⟨closer, -, -, hstep⟩ |
    ⟨item, tail, rfl, hitem, hshorter, hstep⟩⟩ := skipProlog_cases s
  · obtain rfl := Except.ok.inj (hstep.symm.trans h)
    exact ⟨b, hs, .blanks hb, hnone, hhead⟩
  · rw [hstep] at h
    cases h
  · rw [hstep] at h
    obtain ⟨p, rfl, hp, hrest⟩ := exists_of_skipProlog tail h
    exact ⟨_, by rw [hs, List.append_assoc, List.append_assoc], .item hb hitem hp, hrest⟩
termination_by s.length

/-- Where nothing is left behind it, a text is passed over as a whole. -/
theorem skipProlog_eq_nil_iff : skipProlog s = .ok [] ↔ IsProlog s := by
  constructor
  · intro h
    obtain ⟨p, hs, hp, -⟩ := exists_of_skipProlog s h
    rwa [hs, List.append_nil]
  · intro hs
    have hskip : skipProlog (s ++ []) = .ok [] :=
      (skipProlog_append hs []).2 (skipProlog_of_none rfl)
    rwa [List.append_nil] at hskip

theorem IsProlog.append_iff (hp : IsProlog p) : IsProlog (p ++ t) ↔ IsProlog t := by
  rw [← skipProlog_eq_nil_iff, ← skipProlog_eq_nil_iff]
  exact skipProlog_append hp t

/-! ### Documents -/

theorem prologCloser?_of_tag {c : Char} (r : List Char) (hc : isNameChar c = true) :
    prologCloser? ('<' :: c :: r) = none := by
  have hnone {d : Char} (hd : isNameChar d = false) (head : List Char) :
      after? ('<' :: d :: head) ('<' :: c :: r) = none := by
    rw [after?, if_pos rfl, after?, if_neg]
    rintro rfl
    rw [hd] at hc
    cases hc
  have hinstruction : after? "<?".toList ('<' :: c :: r) = none := hnone (by decide) []
  have hcomment : after? "<!--".toList ('<' :: c :: r) = none := hnone (by decide) "--".toList
  have hdeclaration : after? "<!".toList ('<' :: c :: r) = none := hnone (by decide) []
  rw [prologCloser?, hinstruction, hcomment, hdeclaration]
  rfl

/-- Nothing is passed over where an element begins. -/
theorem ReadsElement.skipProlog {e : Element} {u : List Char} (h : ReadsElement e u)
    (t : List Char) : skipProlog (u ++ t) = .ok (u ++ t) := by
  obtain ⟨hname, r, rfl⟩ := h.exists_eq
  obtain ⟨c, s, hs, hc⟩ := hname.exists_cons
  have htrim : trimStart ('<' :: (e.name.toList ++ r) ++ t) = '<' :: (e.name.toList ++ r) ++ t :=
    trimStart_cons_word (by decide) _
  have hnone := prologCloser?_of_tag (s ++ r ++ t) hc
  rw [skipProlog_of_none, htrim]
  rw [htrim, hs]
  exact hnone

/-- Where an element is read behind complete items, the document is read as it if there are
complete items behind it, too. -/
theorem parseDocument_eq_ok_iff_of_readsElement {source : String} {e : Element} {u : List Char}
    (hp : IsProlog p) (hu : ReadsElement e u) (hsource : source.toList = p ++ (u ++ t)) :
    parseDocument source = .ok e ↔ IsProlog t := by
  have hprolog : skipProlog source.toList = .ok (u ++ t) := by
    rw [hsource, skipProlog_append hp]
    exact hu.skipProlog t
  have hhead : (u ++ t).head? = some '<' := by
    obtain ⟨-, r, rfl⟩ := hu.exists_eq
    rfl
  obtain ⟨_, hread⟩ := hu.read (t := t) rfl
  rw [parseDocument, hprolog, ← skipProlog_eq_nil_iff]
  dsimp only [bind, Except.bind]
  rw [if_neg (not_not.2 hhead), hread]
  dsimp only [Except.mapError]
  cases hskip : skipProlog t with
  | error failure => exact iff_of_false nofun nofun
  | ok after =>
    cases after with
    | nil => exact iff_of_true rfl rfl
    | cons c r => exact iff_of_false nofun nofun

/-- A document that is read is an element with complete items and blanks around it. -/
theorem parseDocument_eq_ok_iff {source : String} {e : Element} :
    parseDocument source = .ok e ↔
      ∃ p u q, source.toList = p ++ (u ++ q) ∧ IsProlog p ∧ ReadsElement e u ∧ IsProlog q := by
  constructor
  · intro h
    rw [parseDocument] at h
    obtain ⟨rest, hrest, h⟩ := exists_of_bind_eq_ok h
    dsimp only at h
    split at h
    · cases h
    obtain ⟨root, hroot, h⟩ := exists_of_bind_eq_ok h
    obtain ⟨after, hafter, h⟩ := exists_of_bind_eq_ok h
    split at h
    · cases h
    rename_i hempty
    obtain rfl := Except.ok.inj h
    obtain rfl : after = [] := by simpa using hempty
    obtain ⟨p, hp, hprolog, -⟩ := exists_of_skipProlog source.toList hrest
    obtain ⟨u, hu, helement⟩ := readsElement_of_readElement rest (eq_ok_of_mapError hroot)
    exact ⟨p, u, root.rest, by rw [← hu, ← hp], hprolog, helement, skipProlog_eq_nil_iff.1 hafter⟩
  · rintro ⟨p, u, q, hsource, hp, hu, hq⟩
    exact (parseDocument_eq_ok_iff_of_readsElement hp hu hsource).2 hq

end Markup

end SqlTemplate
