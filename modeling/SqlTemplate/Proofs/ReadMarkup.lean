import Mathlib
import SqlTemplate.Proofs.MarkupGrammar

/-!
# What was read

Whatever the reader gives for an element or for content, it took from a text of it: the grammar of
what is read is complete. What is left is the rest of the text, for content up to a closing tag.

## Main results

* `Markup.describes_part` : the part of content that a text begins with.
* `Markup.readsElement_of_readElement` : an element was read from a text of it.
* `Markup.readsContent_of_readContent` : content was read from a text of it, up to its end.
-/

namespace SqlTemplate

namespace Markup

open Text

/-! ### Names and white space -/

/-- White space stands in front of what is left without it. -/
theorem exists_gap_append (s : List Char) :
    ∃ g, s = g ++ skipGap s ∧ IsGap g ∧ ∀ c ∈ (skipGap s).head?, isGap c = false :=
  ⟨s.takeWhile isGap, List.takeWhile_append_dropWhile.symm, fun _ hc => List.mem_takeWhile_imp hc,
    head_dropWhile isGap s⟩

theorem eq_of_readName {s : List Char} {r : Reading String s} (h : readName s = .ok r) :
    s = r.value.toList ++ r.rest ∧ IsName r.value ∧ ∀ c ∈ r.rest.head?, isNameChar c = false := by
  rw [readName] at h
  split at h
  · cases h
  · rename_i hne
    obtain rfl := Except.ok.inj h
    rw [IsName, String.toList_ofList]
    exact ⟨List.takeWhile_append_dropWhile.symm, ⟨hne, fun c hc => List.mem_takeWhile_imp hc⟩,
      head_dropWhile isNameChar s⟩

theorem eq_of_readChar {c : Char} {s : List Char} {r : Reading Unit s} (h : readChar c s = .ok r) :
    s = c :: r.rest := by
  cases s with
  | nil => cases h
  | cons d t =>
    rw [readChar, Reading.char?] at h
    split at h
    · rename_i r' hr
      obtain rfl := Except.ok.inj h
      split at hr
      · rename_i hd
        obtain rfl := Option.some.inj hr
        rw [hd]
      · cases hr
    · cases h

/-! ### Attributes -/

theorem eq_of_readQuoted {s : List Char} {r : Reading String s}
    (h : readQuoted s = some (.ok r)) :
    ∃ q w, (q = '"' ∨ q = '\'') ∧ s = q :: (w ++ q :: r.rest) ∧ q ∉ w ∧
      r.value = .ofList (decode w) := by
  cases s with
  | nil => cases h
  | cons q body =>
    rw [readQuoted] at h
    split at h
    · rename_i hq
      have h := Option.some.inj h
      split at h
      · rename_i w rest hcut
        obtain rfl := Except.ok.inj h
        have hbody := eq_of_cutAt? hcut
        have hw := not_infix_of_cutAt? (List.cons_ne_nil q []) hcut
        rw [List.append_assoc] at hbody
        exact ⟨q, w, hq, congrArg _ hbody, mt (List.singleton_infix_iff q w).2 hw, rfl⟩
      · cases h
    · cases h

theorem readsAttribute_of_readAttribute {s : List Char} {r : Reading (String × String) s}
    (h : readAttribute s = .present r) : ∃ u, s = u ++ r.rest ∧ ReadsAttribute r.value u := by
  obtain ⟨before, hs, hbefore, -⟩ := exists_gap_append s
  rw [readAttribute] at h
  split at h
  · rename_i hlt
    split at h
    · cases h
    rename_i key hkey
    split at h
    · cases h
    rename_i equals hequals
    split at h
    · cases h
    · cases h
    rename_i value hvalue
    obtain rfl := Attribute.present.inj h
    obtain ⟨hs₁, hname, -⟩ := eq_of_readName hkey
    obtain ⟨left, hs₂, hleft, -⟩ := exists_gap_append key.rest
    have hs₃ := eq_of_readChar hequals
    obtain ⟨right, hs₄, hright, -⟩ := exists_gap_append equals.rest
    obtain ⟨q, w, hq, hs₅, hw, hdecoded⟩ := eq_of_readQuoted hvalue
    have hne : before ≠ [] := by
      rintro rfl
      have hlength := congrArg List.length hs
      rw [List.nil_append] at hlength
      omega
    refine ⟨before ++ (key.value.toList ++ (left ++ '=' :: (right ++ q :: (w ++ [q])))), ?_, ?_⟩
    · calc s = before ++ (key.value.toList ++ key.rest) := by rw [← hs₁, ← hs]
        _ = before ++ (key.value.toList ++ (left ++ '=' :: equals.rest)) := by rw [← hs₃, ← hs₂]
        _ = before ++ (key.value.toList ++ (left ++ '=' ::
            (right ++ q :: (w ++ q :: value.rest)))) := by rw [← hs₅, ← hs₄]
        _ = _ := by simp
    · dsimp only
      rw [hdecoded]
      exact .intro hq hne hbefore hname hleft hright hw
  · cases h

theorem readsAttributes_of_readAttributes (s : List Char) {attributes : List (String × String)}
    {rest : { r : List Char // r.length ≤ s.length }}
    (h : readAttributes s = .ok (attributes, rest)) :
    ∃ a, s = a ++ rest.1 ∧ ReadsAttributes attributes a := by
  rw [readAttributes] at h
  split at h
  · obtain ⟨rfl, rfl⟩ := Prod.mk.inj (Except.ok.inj h)
    exact ⟨[], rfl, .nil⟩
  · cases h
  · rename_i first hfirst
    have hshorter := first.shorter
    obtain ⟨⟨more, rest'⟩, hmore, h⟩ := exists_of_bind_eq_ok h
    obtain ⟨rfl, rfl⟩ := Prod.mk.inj (Except.ok.inj h)
    obtain ⟨u, hs, hu⟩ := readsAttribute_of_readAttribute hfirst
    obtain ⟨a, hrest, ha⟩ := readsAttributes_of_readAttributes first.rest hmore
    refine ⟨u ++ a, ?_, .cons hu ha⟩
    rw [List.append_assoc, ← hrest, ← hs]
termination_by s.length

/-! ### The parts of content -/

/-- What a part of content says about the text that begins with it. -/
def Part.Describes {s : List Char} : Part s → Prop
  | .done => IsEnd s
  | .comment rest _ => ∃ body, s = "<!--".toList ++ (body ++ ("-->".toList ++ rest)) ∧
      ¬ "-->".toList <:+: body
  | .unclosedComment body => s = "<!--".toList ++ body ∧ ¬ "-->".toList <:+: body
  | .data raw rest _ => s = "<![CDATA[".toList ++ (raw ++ ("]]>".toList ++ rest)) ∧
      ¬ "]]>".toList <:+: raw
  | .unclosedData => ∃ body, s = "<![CDATA[".toList ++ body ∧ ¬ "]]>".toList <:+: body
  | .tag => s.head? = some '<'
  | .text raw rest _ => s = raw ++ rest ∧ '<' ∉ raw ∧ ∀ c ∈ rest.head?, c = '<'

theorem describes_part (s : List Char) : (part s).Describes := by
  rw [part]
  split
  · rename_i body hcomment
    have hs := after?_eq_some_iff.1 hcomment
    split
    · rename_i before rest hcut
      have hbody := eq_of_cutAt? hcut
      rw [List.append_assoc] at hbody
      exact ⟨before, hs.trans (congrArg _ hbody), not_infix_of_cutAt? (by decide) hcut⟩
    · rename_i hcut
      exact ⟨hs, cutAt?_eq_none_iff.1 hcut⟩
  · split
    · rename_i body hdata
      have hs := after?_eq_some_iff.1 hdata
      split
      · rename_i raw rest hcut
        have hbody := eq_of_cutAt? hcut
        rw [List.append_assoc] at hbody
        exact ⟨hs.trans (congrArg _ hbody), not_infix_of_cutAt? (by decide) hcut⟩
      · rename_i hcut
        exact ⟨body, hs, cutAt?_eq_none_iff.1 hcut⟩
    · cases s with
      | nil => exact .inl rfl
      | cons c r =>
        dsimp only
        by_cases hc : c = '<'
        · subst hc
          rw [if_pos rfl]
          split
          · rename_i hslash
            obtain ⟨t, rfl⟩ := List.head?_eq_some_iff.1 hslash
            exact .inr ⟨t, rfl⟩
          · rfl
        · rw [if_neg hc]
          refine ⟨?_, ?_, ?_⟩
          · rw [List.cons_append, List.takeWhile_append_dropWhile]
          · rw [List.mem_cons, not_or]
            exact ⟨Ne.symm hc, fun hmem => by simpa using List.mem_takeWhile_imp hmem⟩
          · intro d hd
            simpa using head_dropWhile _ r d hd

/-! ### Elements and content -/

/-- The tag that opens an element was read up to the white space before its end. -/
theorem exists_of_opening {s : List Char} {opening : Reading Unit s}
    {tag : Reading String opening.rest} {attributes : List (String × String)}
    {rest : { r : List Char // r.length ≤ tag.rest.length }}
    (hopening : readChar '<' s = .ok opening) (htag : readName opening.rest = .ok tag)
    (hattributes : readAttributes tag.rest = .ok (attributes, rest)) :
    ∃ a g, s = '<' :: (tag.value.toList ++ (a ++ (g ++ skipGap rest.1))) ∧ IsName tag.value ∧
      ReadsAttributes attributes a ∧ IsGap g := by
  have hs := eq_of_readChar hopening
  obtain ⟨hs₁, hname, -⟩ := eq_of_readName htag
  obtain ⟨a, hs₂, ha⟩ := readsAttributes_of_readAttributes tag.rest hattributes
  obtain ⟨g, hs₃, hg, -⟩ := exists_gap_append rest.1
  refine ⟨a, g, ?_, hname, ha, hg⟩
  rw [← hs₃, ← hs₂, ← hs₁, ← hs]

mutual

/-- An element was read from a text of it. -/
theorem readsElement_of_readElement (s : List Char) {r : Reading Element s}
    (h : readElement s = .ok r) : ∃ u, s = u ++ r.rest ∧ ReadsElement r.value u := by
  rw [readElement] at h
  obtain ⟨opening, hopening, h⟩ := exists_of_bind_eq_ok h
  obtain ⟨tag, htag, h⟩ := exists_of_bind_eq_ok h
  obtain ⟨⟨attributes, rest, hrest⟩, hattributes, h⟩ := exists_of_bind_eq_ok h
  obtain ⟨a, g, hs, hname, ha, hg⟩ := exists_of_opening hopening htag hattributes
  have hshorter := opening.shorter
  have hshorter' := tag.shorter
  have hgap := length_skipGap_le rest
  dsimp only at hs h
  split at h
  · rename_i after hself
    have hs₁ : skipGap rest = "/>".toList ++ after := after?_eq_some_iff.1 hself
    obtain rfl := Except.ok.inj h
    refine ⟨_, ?_, .closed hname ha hg⟩
    calc s = '<' :: (tag.value.toList ++ (a ++ (g ++ ("/>".toList ++ after)))) := by
          rw [← hs₁, ← hs]
      _ = _ := by simp
  · obtain ⟨bracket, hbracket, h⟩ := exists_of_bind_eq_ok h
    have hshorter'' := bracket.shorter
    obtain ⟨⟨children, inner, hinner⟩, hchildren, h⟩ := exists_of_bind_eq_ok h
    have hs₁ := eq_of_readChar hbracket
    obtain ⟨w, hs₂, hw, -⟩ := readsContent_of_readContent bracket.rest hchildren
    dsimp only at hs₂ h
    split at h
    · cases h
    rename_i after hclose
    have hs₃ : inner = "</".toList ++ after := after?_eq_some_iff.1 hclose
    obtain ⟨close, hclosing, h⟩ := exists_of_bind_eq_ok h
    split at h
    · cases h
    rename_i hsame
    obtain ⟨final, hfinal, h⟩ := exists_of_bind_eq_ok h
    obtain rfl := Except.ok.inj h
    obtain ⟨hs₄, -⟩ := eq_of_readName hclosing
    rw [not_not.1 hsame] at hs₄
    obtain ⟨g', hs₅, hg', -⟩ := exists_gap_append close.rest
    have hs₆ := eq_of_readChar hfinal
    refine ⟨_, ?_, .paired hname ha hg hw hg'⟩
    calc s = '<' :: (tag.value.toList ++ (a ++ (g ++ '>' :: (w ++ inner)))) := by
          rw [← hs₂, ← hs₁, ← hs]
      _ = '<' :: (tag.value.toList ++ (a ++ (g ++ '>' :: (w ++ ("</".toList ++
          (tag.value.toList ++ (g' ++ '>' :: final.rest))))))) := by
        rw [← hs₆, ← hs₅, ← hs₄, ← hs₃]
      _ = _ := by simp
termination_by (s.length, 0)

/-- Content was read from a text of it, up to its end. -/
theorem readsContent_of_readContent (s : List Char) {l : List Markup}
    {rest : { r : List Char // r.length ≤ s.length }} (h : readContent s = .ok (l, rest)) :
    ∃ w, s = w ++ rest.1 ∧ ReadsContent l w ∧ IsEnd rest.1 := by
  have hpart := describes_part s
  rw [readContent] at h
  split at h
  · rename_i heq
    rw [heq] at hpart
    obtain ⟨rfl, rfl⟩ := Prod.mk.inj (Except.ok.inj h)
    exact ⟨[], rfl, .nil, hpart⟩
  · rename_i after hlt heq
    rw [heq] at hpart
    obtain ⟨body, hs, hbody⟩ := hpart
    obtain ⟨⟨nodes, r, hr⟩, hnodes, h⟩ := exists_of_bind_eq_ok h
    obtain ⟨rfl, rfl⟩ := Prod.mk.inj (Except.ok.inj h)
    obtain ⟨w, hafter, hw, hend⟩ := readsContent_of_readContent after hnodes
    refine ⟨_, ?_, .comment hbody hw, hend⟩
    simp only [List.append_assoc]
    rw [← hafter]
    exact hs
  · cases h
  · rename_i raw after hlt heq
    rw [heq] at hpart
    obtain ⟨hs, hraw⟩ := hpart
    obtain ⟨⟨nodes, r, hr⟩, hnodes, h⟩ := exists_of_bind_eq_ok h
    obtain ⟨rfl, rfl⟩ := Prod.mk.inj (Except.ok.inj h)
    obtain ⟨w, hafter, hw, hend⟩ := readsContent_of_readContent after hnodes
    refine ⟨_, ?_, .data hraw hw, hend⟩
    simp only [List.append_assoc]
    rw [← hafter]
    exact hs
  · cases h
  · obtain ⟨first, hfirst, h⟩ := exists_of_bind_eq_ok h
    have hshorter := first.shorter
    obtain ⟨⟨nodes, r, hr⟩, hnodes, h⟩ := exists_of_bind_eq_ok h
    obtain ⟨rfl, rfl⟩ := Prod.mk.inj (Except.ok.inj h)
    obtain ⟨u, hs, hu⟩ := readsElement_of_readElement s hfirst
    obtain ⟨w, hafter, hw, hend⟩ := readsContent_of_readContent first.rest hnodes
    refine ⟨_, ?_, .element hu hw, hend⟩
    rw [List.append_assoc, ← hafter]
    exact hs
  · rename_i raw after hlt heq
    rw [heq] at hpart
    obtain ⟨hs, hraw, hhead⟩ := hpart
    obtain ⟨⟨nodes, r, hr⟩, hnodes, h⟩ := exists_of_bind_eq_ok h
    obtain ⟨rfl, rfl⟩ := Prod.mk.inj (Except.ok.inj h)
    obtain ⟨w, hafter, hw, hend⟩ := readsContent_of_readContent after hnodes
    refine ⟨_, ?_, .text hraw (fun c hc => ?_) hw, hend⟩
    · rw [List.append_assoc, ← hafter]
      exact hs
    · refine hhead c ?_
      rw [hafter]
      exact List.mem_head?_append_of_mem_head? hc
termination_by (s.length, 1)

end

end Markup

end SqlTemplate
