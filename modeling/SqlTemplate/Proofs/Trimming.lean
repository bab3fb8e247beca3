import Mathlib.Data.List.Induction
import Mathlib.Data.List.TakeWhile
import SqlTemplate.Text.Blank

/-!
# Trimming

What trimming leaves of a text that is taken apart at its ends.

## Main results

* `Text.trimStart_of_head?`, `Text.trimEnd_of_getLast?` : a text that has no blank at an end.
* `Text.trim_of_ends` : a text that has no blank at either end.
* `Text.trimEnd_append` : trimming behind a word.
* `Text.trimEnd_takeWhile` : trimming before and after a beginning is cut off.
-/

namespace SqlTemplate.Text

variable {s : List Char} {c : Char}

theorem trimStart_of_head? (h : ∀ c, s.head? = some c → isBlank c = false) : trimStart s = s := by
  cases s with
  | nil => rfl
  | cons c s => rw [trimStart, List.dropWhile_cons_of_neg (by simp [h c rfl])]

theorem trimStart_cons_blank (hc : isBlank c = true) (s : List Char) :
    trimStart (c :: s) = trimStart s :=
  List.dropWhile_cons_of_pos hc

theorem trimStart_cons_word (hc : isBlank c = false) (s : List Char) :
    trimStart (c :: s) = c :: s :=
  trimStart_of_head? fun _ hd => Option.some.inj hd ▸ hc

theorem trimEnd_of_getLast? (h : s.getLast? = some c) (hc : isBlank c = false) :
    trimEnd s = s := by
  obtain ⟨t, rfl⟩ := List.getLast?_eq_some_iff.1 h
  rw [trimEnd, List.reverse_append, List.reverse_singleton, List.singleton_append,
    List.dropWhile_cons_of_neg (by simp [hc]), List.reverse_cons, List.reverse_reverse]

theorem trimEnd_concat_blank (s : List Char) (hc : isBlank c = true) :
    trimEnd (s ++ [c]) = trimEnd s := by
  rw [trimEnd, trimEnd, List.reverse_append, List.reverse_singleton, List.singleton_append,
    List.dropWhile_cons_of_pos hc]

theorem trimEnd_concat_word (s : List Char) (hc : isBlank c = false) :
    trimEnd (s ++ [c]) = s ++ [c] :=
  trimEnd_of_getLast? List.getLast?_concat hc

/-- A text that has no blank at either end is trimmed. -/
theorem trim_of_ends (hhead : ∀ c, s.head? = some c → isBlank c = false)
    (hlast : ∀ c, s.getLast? = some c → isBlank c = false) : trim s = s := by
  rw [trim, trimStart_of_head? hhead]
  cases h : s.getLast? with
  | none =>
    rw [List.getLast?_eq_none_iff.1 h]
    rfl
  | some c => exact trimEnd_of_getLast? h (hlast c h)

/-- Behind a word only what comes after it is trimmed. -/
theorem trimEnd_append (hs : s.getLast? = some c) (hc : isBlank c = false) (t : List Char) :
    trimEnd (s ++ t) = s ++ trimEnd t := by
  induction t using List.reverseRecOn with
  | nil => rw [List.append_nil, trimEnd_of_getLast? hs hc, show trimEnd [] = [] from rfl,
      List.append_nil]
  | append_singleton t d ih =>
    rw [← List.append_assoc]
    cases hd : isBlank d with
    | true => rw [trimEnd_concat_blank _ hd, ih, trimEnd_concat_blank _ hd]
    | false => rw [trimEnd_concat_word _ hd, trimEnd_concat_word _ hd, List.append_assoc]

/-- A text without blanks is left alone. -/
theorem trim_of_forall (h : ∀ c ∈ s, isBlank c = false) : trim s = s := by
  have hstart : trimStart s = s := trimStart_of_head? fun c hc => h c (List.mem_of_mem_head? hc)
  rw [trim, hstart]
  cases hlast : s.getLast? with
  | none => rw [List.getLast?_eq_none_iff.1 hlast]; rfl
  | some c => exact trimEnd_of_getLast? hlast (h c (List.mem_of_mem_getLast? hlast))

theorem trimEnd_trimEnd (s : List Char) : trimEnd (trimEnd s) = trimEnd s := by
  induction s using List.reverseRecOn with
  | nil => rfl
  | append_singleton s c ih =>
    cases hc : isBlank c with
    | true => rw [trimEnd_concat_blank s hc, ih]
    | false => rw [trimEnd_concat_word s hc, trimEnd_concat_word s hc]

/-- Where blanks are no reason to cut, a text may be trimmed before it is cut, or only then. -/
theorem trimEnd_takeWhile {p : Char → Bool} (hp : ∀ c, isBlank c = true → p c = true)
    (s : List Char) : trimEnd ((trimEnd s).takeWhile p) = trimEnd (s.takeWhile p) := by
  induction s using List.reverseRecOn with
  | nil => rfl
  | append_singleton s c ih =>
    cases hc : isBlank c with
    | false => rw [trimEnd_concat_word s hc]
    | true =>
      rw [trimEnd_concat_blank s hc, ih, List.takeWhile_append]
      split
      · rename_i hall
        have hs : s.takeWhile p = s :=
          (List.takeWhile_sublist p).eq_of_length hall
        rw [hs, List.takeWhile_cons_of_pos (hp c hc), List.takeWhile_nil,
          trimEnd_concat_blank s hc]
      · rfl

end SqlTemplate.Text
