import SqlTemplate.Template.Context

/-!
# Joining fragments

Texts with `Context.join` are a monoid: the empty text is its unit, and the space between two
words does not depend on the order in which three fragments are put together. What a template
writes after some text is therefore what it writes by itself, joined to that text.

## Main definitions

* `Context.gap` : the space between a text and a fragment, or nothing.

## Main results

* `Context.join_eq` : a join is the text, the gap and the fragment.
* `Context.join_nil`, `Context.nil_join`, `Context.join_assoc` : the laws of a monoid.
-/

namespace SqlTemplate.Context

open Text

variable {s t u : List Char}

/-- What stands between a text and a fragment: a space between two words, else nothing. -/
def gap (s t : List Char) : List Char :=
  if endsWord s && !startsBlank t then [' '] else []

theorem gap_append_left (s : List Char) (ht : t ≠ []) (u : List Char) :
    gap (s ++ t) u = gap t u := by
  have hlast : (s ++ t).getLast? = t.getLast? := by
    rw [List.getLast?_append, List.getLast?_eq_some_getLast ht, Option.some_or]
  rw [gap, gap, endsWord, endsWord, hlast]

theorem gap_append_right (s : List Char) (ht : t ≠ []) (u : List Char) :
    gap s (t ++ u) = gap s t := by
  cases t with
  | nil => exact absurd rfl ht
  | cons c t => rfl

theorem join_eq (s : List Char) (ht : t ≠ []) : join s t = s ++ gap s t ++ t := by
  rw [join, gap, if_neg (by simpa using ht)]
  split <;> simp

@[simp] theorem join_nil (s : List Char) : join s [] = s := rfl

@[simp] theorem nil_join (s : List Char) : join [] s = s := by
  cases s <;> rfl

theorem join_assoc (s t u : List Char) : join (join s t) u = join s (join t u) := by
  by_cases ht : t = []
  · rw [ht, join_nil, nil_join]
  by_cases hu : u = []
  · rw [hu, join_nil, join_nil]
  have htu : t ++ gap t u ++ u ≠ [] := by
    simp [ht]
  have hleft : gap (s ++ gap s t ++ t) u = gap t u := gap_append_left _ ht u
  have hright : gap s (t ++ gap t u ++ u) = gap s t := by
    rw [List.append_assoc, gap_append_right s ht]
  rw [join_eq s ht, join_eq _ hu, join_eq t hu, join_eq s htu, hleft, hright]
  simp only [List.append_assoc]

@[simp] theorem toList_write_sql (c : Context) (fragment : String) :
    (c.write fragment).sql.toList = join c.sql.toList fragment.toList :=
  String.toList_ofList

theorem write_empty (c : Context) : c.write "" = c := by
  rw [write, String.toList_empty, join_nil, String.ofList_toList]

end SqlTemplate.Context
