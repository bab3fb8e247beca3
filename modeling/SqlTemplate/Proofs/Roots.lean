import Mathlib.Data.List.TakeWhile
import SqlTemplate.Proofs.Trimming
import SqlTemplate.Template.Iteration

/-!
# Roots

The property that a placeholder names begins with a root, which goes on until a point, a comma, a
colon, an opening bracket or a blank. A text without any of these is a root, and wherever such a
text stands in front it is the whole root: trimming and cutting leave it alone.

## Main definitions

* `IsRoot` : a text that is a root by itself.

## Main results

* `IsRoot.append_inj` : a root that ends is told from what comes after it.
* `IsRoot.trim_append`, `IsRoot.takeWhile_append` : trimming and cutting behind a root.
-/

namespace SqlTemplate

open Text

/-- A text that is a root by itself: it is not empty, and none of its characters ends a root. -/
structure IsRoot (w : List Char) : Prop where
  ne_nil : w ≠ []
  continues : ∀ c ∈ w, endsRoot [c] = false

theorem isRoot_iff {w : List Char} :
    IsRoot w ↔ w ≠ [] ∧ w.all (fun c => !endsRoot [c]) = true := by
  rw [List.all_eq_true]
  constructor
  · exact fun h => ⟨h.ne_nil, fun c hc => by rw [h.continues c hc, Bool.not_false]⟩
  · exact fun h => ⟨h.1, fun c hc => by simpa using h.2 c hc⟩

instance (w : List Char) : Decidable (IsRoot w) :=
  decidable_of_iff _ isRoot_iff.symm

theorem isBlank_of_endsRoot {c : Char} (h : endsRoot [c] = false) : isBlank c = false :=
  (Bool.or_eq_false_iff.1 h).2

namespace IsRoot

variable {v w : List Char} {c : Char}

/-- A root is the longest beginning of a text that does not end it. -/
theorem takeWhile_continues (hw : IsRoot w) {p : List Char} (hp : endsRoot p = true) :
    (w ++ p).takeWhile (fun c => !endsRoot [c]) = w := by
  rw [List.takeWhile_append_of_pos fun c hc => by rw [hw.continues c hc, Bool.not_false]]
  cases p with
  | nil => simp
  | cons c p =>
    have hc : endsRoot [c] = true := hp
    rw [List.takeWhile_cons_of_neg (by simp [hc]), List.append_nil]

theorem append_inj (hv : IsRoot v) (hw : IsRoot w) {p q : List Char} (hp : endsRoot p = true)
    (hq : endsRoot q = true) (h : v ++ p = w ++ q) : v = w ∧ p = q := by
  have hvw : v = w := by
    rw [← hv.takeWhile_continues hp, h, hw.takeWhile_continues hq]
  subst hvw
  exact ⟨rfl, List.append_cancel_left h⟩

theorem trimStart_append (hw : IsRoot w) (u : List Char) : trimStart (w ++ u) = w ++ u := by
  refine trimStart_of_head? fun c hc => ?_
  rw [List.head?_append, List.head?_eq_some_head hw.ne_nil, Option.some_or] at hc
  exact isBlank_of_endsRoot (hw.continues c (Option.some.inj hc ▸ List.head_mem hw.ne_nil))

theorem trimEnd_append (hw : IsRoot w) (u : List Char) : trimEnd (w ++ u) = w ++ trimEnd u :=
  Text.trimEnd_append (List.getLast?_eq_some_getLast hw.ne_nil)
    (isBlank_of_endsRoot (hw.continues _ (List.getLast_mem hw.ne_nil))) u

theorem trim_append (hw : IsRoot w) (u : List Char) : trim (w ++ u) = w ++ trimEnd u := by
  rw [trim, hw.trimStart_append, hw.trimEnd_append]

/-- A cut at a character that ends roots is behind the root. -/
theorem takeWhile_append (hw : IsRoot w) (hc : endsRoot [c] = true) (u : List Char) :
    (w ++ u).takeWhile (· != c) = w ++ u.takeWhile (· != c) := by
  refine List.takeWhile_append_of_pos fun d hd => ?_
  rw [bne_iff_ne]
  rintro rfl
  rw [hw.continues d hd] at hc
  cases hc

end IsRoot

end SqlTemplate
