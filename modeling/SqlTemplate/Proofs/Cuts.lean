import Mathlib
import SqlTemplate.Text.Parts

/-!
# Where texts are cut

A text is cut at the first occurrence of a mark. So what stands before the cut does not contain the
mark, and a text that is cut at all is cut in the same place if something is added behind it.

## Main results

* `Text.cutAt?_append` : a text that does not contain a mark is cut off in front of it.
* `Text.not_infix_of_cutAt?`, `Text.cutAt?_eq_none_iff` : a cut is the first, and none where the
  mark does not occur.
* `Text.cutAt?_append_right` : what is added behind a cut leaves it where it is.
-/

namespace SqlTemplate.Text

/-- A text that does not contain a mark is cut off in front of it. The last character of the mark
occurs nowhere else in it, so that no mark begins in the text and ends behind it. -/
theorem cutAt?_append {m : List Char} {z : Char} (hz : z ∉ m) {s : List Char}
    (hs : ¬ m ++ [z] <:+: s) (t : List Char) :
    cutAt? (m ++ [z]) (s ++ (m ++ [z] ++ t)) = some (s, t) := by
  induction s with
  | nil =>
    obtain ⟨c, r, hr⟩ : ∃ c r, m ++ [z] = c :: r := List.exists_cons_of_ne_nil (by simp)
    have hafter : after? (m ++ [z]) (m ++ [z] ++ t) = some t := after?_eq_some_iff.2 rfl
    rw [hr, List.cons_append] at hafter
    rw [hr, List.nil_append, List.cons_append, cutAt?, hafter]
  | cons c s ih =>
    have hnone : after? (m ++ [z]) (c :: s ++ (m ++ [z] ++ t)) = none := by
      by_contra hsome
      obtain ⟨tail, hsome⟩ := Option.ne_none_iff_exists'.1 hsome
      rcases List.append_eq_append_iff.1 (after?_eq_some_iff.1 hsome) with
        ⟨u, hmark, hu⟩ | ⟨u, hfront, -⟩
      · -- The mark would end behind the text, where only the front of the mark itself stands.
        rcases List.eq_nil_or_concat u with rfl | ⟨v, y, rfl⟩
        · exact hs ⟨[], [], by simp [hmark]⟩
        rw [List.concat_eq_append, ← List.append_assoc] at hmark
        obtain ⟨hm, hy⟩ := List.append_inj' hmark rfl
        obtain rfl := List.cons.inj hy |>.1
        have hlt : v.length < (m ++ [z]).length := by
          rw [hm]
          simp only [List.length_append, List.length_cons]
          omega
        have hget := congrArg (fun l => l[v.length]?) hu
        simp only [List.concat_eq_append, List.append_assoc] at hget
        rw [List.getElem?_append_left (by simp [hm])] at hget
        simp only [List.getElem?_append_right (Nat.le_refl _), Nat.sub_self] at hget
        exact hz (List.mem_of_getElem? hget)
      · exact hs ⟨[], u, by simp [hfront]⟩
    have htail := ih fun h => hs (h.trans (List.suffix_cons c s).isInfix)
    rw [List.cons_append] at hnone
    rw [List.cons_append, cutAt?, hnone, htail]
    rfl

theorem cutAtChar?_append {c : Char} {s t : List Char} (hs : c ∉ s) :
    cutAtChar? c (s ++ c :: t) = some (s, t) :=
  cutAt?_append (m := []) List.not_mem_nil (fun h => hs (List.singleton_infix_iff _ _ |>.1 h)) t

/-- The first mark stands in front of a text, or behind its first character. -/
theorem cutAt?_cons_eq_some {mark : List Char} {c : Char} {s before after : List Char}
    (h : cutAt? mark (c :: s) = some (before, after)) :
    before = [] ∧ c :: s = mark ++ after ∨
      (∀ tail, c :: s ≠ mark ++ tail) ∧ ∃ front, before = c :: front ∧
        cutAt? mark s = some (front, after) := by
  rw [cutAt?] at h
  split at h
  · rename_i tail hafter
    obtain ⟨rfl, rfl⟩ := Prod.mk.inj (Option.some.inj h)
    exact .inl ⟨rfl, after?_eq_some_iff.1 hafter⟩
  · rename_i hafter
    obtain ⟨cut, hcut, he⟩ := Option.map_eq_some_iff.1 h
    obtain ⟨rfl, rfl⟩ := Prod.mk.inj he
    refine .inr ⟨fun tail htail => ?_, cut.1, rfl, hcut⟩
    rw [after?_eq_some_iff.2 htail] at hafter
    cases hafter

/-- A mark that stands in a text is found there. -/
theorem cutAt?_ne_none (mark front back : List Char) :
    cutAt? mark (front ++ (mark ++ back)) ≠ none := by
  induction front with
  | nil =>
    have hafter : after? mark (mark ++ back) = some back := after?_eq_some_iff.2 rfl
    rw [List.nil_append]
    cases hs : mark ++ back with
    | nil =>
      rw [(List.append_eq_nil_iff.1 hs).1]
      exact Option.some_ne_none _
    | cons c s =>
      rw [hs] at hafter
      rw [cutAt?, hafter]
      exact Option.some_ne_none _
  | cons c front ih =>
    rw [List.cons_append, cutAt?]
    split
    · exact Option.some_ne_none _
    · simpa using ih

variable {mark s before tail : List Char}

/-- No mark stands before the first one. -/
theorem not_infix_of_cutAt? (hmark : mark ≠ []) (h : cutAt? mark s = some (before, tail)) :
    ¬ mark <:+: before := by
  induction s generalizing before with
  | nil =>
    rw [cutAt?, if_neg (by simpa using hmark)] at h
    cases h
  | cons c s ih =>
    rcases cutAt?_cons_eq_some h with ⟨rfl, -⟩ | ⟨hne, front, rfl, hcut⟩
    · exact fun hinfix => hmark (List.infix_nil.1 hinfix)
    · intro hinfix
      rcases List.infix_cons_iff.1 hinfix with ⟨r, hprefix⟩ | hinfix
      · -- The mark would be a prefix of the whole text.
        refine hne (r ++ (mark ++ tail)) ?_
        rw [eq_of_cutAt? hcut, ← List.cons_append, ← List.cons_append, ← hprefix]
        simp only [List.append_assoc]
      · exact ih hcut hinfix

theorem cutAt?_eq_none_iff : cutAt? mark s = none ↔ ¬ mark <:+: s := by
  constructor
  · rintro h ⟨front, back, rfl⟩
    rw [List.append_assoc] at h
    exact cutAt?_ne_none mark front back h
  · intro h
    by_contra hsome
    obtain ⟨⟨before, tail⟩, hcut⟩ := Option.ne_none_iff_exists'.1 hsome
    exact h ⟨before, tail, (eq_of_cutAt? hcut).symm⟩

/-- What is added behind a text that is cut leaves the cut where it is. -/
theorem cutAt?_append_right (h : cutAt? mark s = some (before, tail)) (t : List Char) :
    cutAt? mark (s ++ t) = some (before, tail ++ t) := by
  induction s generalizing before with
  | nil =>
    rw [cutAt?] at h
    split at h
    · rename_i hmark
      obtain rfl := List.isEmpty_iff.1 hmark
      obtain ⟨rfl, rfl⟩ := Prod.mk.inj (Option.some.inj h)
      cases t <;> rfl
    · cases h
  | cons c s ih =>
    rcases cutAt?_cons_eq_some h with ⟨rfl, hs⟩ | ⟨hne, front, rfl, hcut⟩
    · have hafter : after? mark (c :: (s ++ t)) = some (tail ++ t) := by
        rw [after?_eq_some_iff, ← List.cons_append, hs, List.append_assoc]
      rw [List.cons_append, cutAt?, hafter]
    · have hafter : after? mark (c :: (s ++ t)) = none := by
        -- The mark stands in `s`, so it is no longer than `s` and does not reach into `t`.
        have hlength := length_of_cutAt? hcut
        by_contra hsome
        obtain ⟨r, hsome⟩ := Option.ne_none_iff_exists'.1 hsome
        have hsplit : c :: s ++ t = mark ++ r := after?_eq_some_iff.1 hsome
        rcases List.append_eq_append_iff.1 hsplit with ⟨u, rfl, -⟩ | ⟨u, hfront, -⟩
        · simp only [List.length_append, List.length_cons] at hlength
          omega
        · exact hne u hfront
      rw [List.cons_append, cutAt?, hafter, ih hcut]
      rfl

/-- Whether a text begins with a head is seen from a part of it that holds a character which the
head has not. -/
theorem isSome_after?_append {head s : List Char} {c : Char} (hc : c ∈ s) (hhead : c ∉ head)
    (t : List Char) : (after? head (s ++ t)).isSome = (after? head s).isSome := by
  rw [Bool.eq_iff_iff, Option.isSome_iff_exists, Option.isSome_iff_exists]
  simp only [after?_eq_some_iff]
  constructor
  · rintro ⟨r, h⟩
    rcases List.append_eq_append_iff.1 h with ⟨u, rfl, -⟩ | ⟨u, hs, -⟩
    · exact absurd (List.mem_append_left u hc) hhead
    · exact ⟨u, hs⟩
  · rintro ⟨r, rfl⟩
    exact ⟨r ++ t, List.append_assoc ..⟩

/-- What has a property is told from what follows where that lacks it. -/
theorem takeWhile_dropWhile_append {p : Char → Bool} {s t : List Char} (hs : ∀ c ∈ s, p c = true)
    (ht : ∀ c ∈ t.head?, p c = false) :
    (s ++ t).takeWhile p = s ∧ (s ++ t).dropWhile p = t := by
  rw [List.takeWhile_append_of_pos hs, List.dropWhile_append_of_pos hs]
  cases t with
  | nil => simp
  | cons c t => simp [ht c rfl]

theorem head_dropWhile (p : Char → Bool) (s : List Char) :
    ∀ c ∈ (s.dropWhile p).head?, p c = false := by
  intro c hc
  have hhead := List.head?_dropWhile_not p s
  rw [Option.mem_def.1 hc] at hhead
  exact hhead

end SqlTemplate.Text
