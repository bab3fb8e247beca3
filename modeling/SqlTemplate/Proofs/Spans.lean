import SqlTemplate.Proofs.MarkerWriting

/-!
# Spans of a text

The pieces of a text do not tell an opening that was escaped from one that stands there as
characters. The spans do: each is a character, an escaped opening or a marker, and written as they
stand they are the text again. What is done with the markers of a text is a function of its spans,
so that it can be said what becomes of each part of the text.

## Main definitions

* `Marker.Span`, `Marker.spans` : the parts of a text as they stand in it.
* `Marker.Span.write` : a span as it stands in the text.
* `Marker.Span.fill` : a span with its escape undone or something in the place of its marker.
* `Marker.StandsIn` : an opening that is closed and not escaped.

## Main results

* `Marker.flatMap_write` : the spans of a text are the text.
* `Marker.flatMap_pieces` : the pieces of a text are those of its spans.
* `Marker.occursIn_iff_standsIn` : markers occur where they stand.
* `Marker.toList_replace_eq` : replacing markers, span after span.
-/

namespace SqlTemplate.Marker

variable {k : Marker} {s rest body after : List Char} {c : Char}

/-- A part of a text as it stands there. -/
inductive Span where
  | char (c : Char)
  /-- A backslash and an opening. -/
  | escape
  | token (body : List Char)
  deriving DecidableEq, Repr

namespace Span

/-- A span as it stands in the text. -/
def write (k : Marker) : Span → List Char
  | .char c => [c]
  | .escape => ['\\', k.mark, '{']
  | .token body => k.mark :: '{' :: (escapeClosings body ++ ['}'])

/-- A span with its escape undone, or with something in the place of its marker. -/
def fill (k : Marker) (f : List Char → List Char) : Span → List Char
  | .char c => [c]
  | .escape => [k.mark, '{']
  | .token body => f body

/-- The pieces of a span. -/
def pieces (k : Marker) : Span → List Piece
  | .char c => [.char c]
  | .escape => [.char k.mark, .char '{']
  | .token body => [.token body]

/-- The body of a marker, as it is handed on. -/
def body? : Span → Option String
  | .token body => some (.ofList body)
  | _ => none

end Span

/-- The spans of a text. -/
def spans (k : Marker) (s : List Char) : List Span :=
  have hs := length_of_front k s
  match hf : front k s with
  | .done => []
  | .escaped rest =>
    have : rest.length < s.length := by
      rw [hf] at hs
      exact hs
    .escape :: spans k rest
  | .plain c rest =>
    have : rest.length < s.length := by
      rw [hf] at hs
      exact hs
    .char c :: spans k rest
  | .opened rest =>
    match hc : closing? rest with
    | none => s.map .char
    | some (body, after) =>
      have : after.length < s.length := by
        rw [hf] at hs
        exact (length_of_closing? hc).trans hs
      .token body :: spans k after
termination_by s.length

theorem spans_eq (k : Marker) (s : List Char) :
    spans k s = match front k s with
      | .done => []
      | .escaped rest => .escape :: spans k rest
      | .plain c rest => .char c :: spans k rest
      | .opened rest => match closing? rest with
        | none => s.map .char
        | some (body, after) => .token body :: spans k after := by
  rw [spans]
  split <;> simp_all
  split <;> simp_all

@[simp] theorem spans_nil (k : Marker) : spans k [] = [] := by
  rw [spans_eq, front]

theorem spans_escaped (k : Marker) (rest : List Char) :
    spans k ('\\' :: k.mark :: '{' :: rest) = .escape :: spans k rest := by
  rw [spans_eq, front_eq_escaped]

theorem spans_plain (h : front k (c :: rest) = .plain c rest) :
    spans k (c :: rest) = .char c :: spans k rest := by
  rw [spans_eq, h]

theorem spans_unclosed (k : Marker) (h : closing? rest = none) :
    spans k (k.mark :: '{' :: rest) = (k.mark :: '{' :: rest).map .char := by
  rw [spans_eq, front_eq_opened]
  simp only [h]

theorem spans_marker (k : Marker) (h : closing? rest = some (body, after)) :
    spans k (k.mark :: '{' :: rest) = .token body :: spans k after := by
  rw [spans_eq, front_eq_opened]
  simp only [h]

/-- A body stands in the text with a backslash before each of its closing braces. -/
theorem eq_escapeClosings_of_closing? (h : closing? s = some (body, after)) :
    s = escapeClosings body ++ '}' :: after := by
  fun_induction closing? s generalizing body with
  | case1 => cases h
  | case2 s ih =>
    obtain ⟨r, hr, he⟩ := Option.map_eq_some_iff.1 h
    obtain ⟨rfl, rfl⟩ := Prod.mk.inj he
    rw [escapeClosings, if_pos rfl, List.cons_append, List.cons_append, ← ih hr]
  | case3 s =>
    obtain ⟨rfl, rfl⟩ := Prod.mk.inj (Option.some.inj h)
    rfl
  | case4 c s hc hne ih =>
    obtain ⟨r, hr, he⟩ := Option.map_eq_some_iff.1 h
    obtain ⟨rfl, rfl⟩ := Prod.mk.inj he
    rw [escapeClosings, if_neg hne, List.cons_append, ← ih hr]

/-- The spans of a text as they stand in it are the text. -/
theorem flatMap_write (k : Marker) (s : List Char) :
    (spans k s).flatMap (Span.write k) = s := by
  induction s using cut_induction k with
  | done => rw [spans_nil, List.flatMap_nil]
  | escaped rest ih =>
    rw [spans_escaped, List.flatMap_cons, ih]
    rfl
  | plain c rest hf ih =>
    rw [spans_plain hf, List.flatMap_cons, ih]
    rfl
  | unclosed rest hc =>
    rw [spans_unclosed k hc, List.flatMap_map]
    exact List.flatMap_singleton' _
  | marker rest body after hc ih =>
    rw [spans_marker k hc, List.flatMap_cons, ih, eq_escapeClosings_of_closing? hc, Span.write]
    simp

/-- The pieces of a text are those of its spans. -/
theorem flatMap_pieces (k : Marker) (s : List Char) :
    (spans k s).flatMap (Span.pieces k) = pieces k s := by
  induction s using cut_induction k with
  | done => rw [spans_nil, List.flatMap_nil, pieces_nil]
  | escaped rest ih =>
    rw [spans_escaped, List.flatMap_cons, ih, pieces_escaped]
    rfl
  | plain c rest hf ih =>
    rw [spans_plain hf, List.flatMap_cons, ih, pieces_plain hf]
    rfl
  | unclosed rest hc =>
    rw [spans_unclosed k hc, pieces_unclosed k hc, List.flatMap_map]
    exact List.map_eq_flatMap.symm
  | marker rest body after hc ih =>
    rw [spans_marker k hc, List.flatMap_cons, ih, pieces_marker k hc]
    rfl

theorem bodies_eq (k : Marker) (s : String) :
    k.bodies s = (spans k s.toList).filterMap Span.body? := by
  rw [bodies, ← flatMap_pieces]
  induction spans k s.toList with
  | nil => rfl
  | cons span l ih =>
    rw [List.flatMap_cons, List.filterMap_append, ih]
    cases span <;> rfl

/-- A marker occurs in a text if one of the spans is a marker. -/
theorem occursIn_iff {s : String} :
    k.occursIn s = true ↔ ∃ body, .token body ∈ spans k s.toList := by
  rw [occursIn, bodies_eq, Bool.not_eq_true', List.isEmpty_eq_false_iff_exists_mem]
  constructor
  · rintro ⟨text, htext⟩
    obtain ⟨span, hmem, hbody⟩ := List.mem_filterMap.1 htext
    cases span with
    | token body => exact ⟨body, hmem⟩
    | char c => cases hbody
    | escape => cases hbody
  · rintro ⟨body, hmem⟩
    exact ⟨.ofList body, List.mem_filterMap.2 ⟨_, hmem, rfl⟩⟩

theorem token_notMem_spans {s : String} (hs : k.occursIn s = false) (body : List Char) :
    .token body ∉ spans k s.toList := fun hmem =>
  Bool.false_ne_true (hs.symm.trans (occursIn_iff.2 ⟨body, hmem⟩))

/-! ### Markers that stand in a text -/

/-- A marker stands in a text: an opening and, behind it, a closing brace, both without a backslash
before them. -/
def StandsIn (k : Marker) (s : List Char) : Prop :=
  ∃ before body after, s = before ++ k.mark :: '{' :: (body ++ '}' :: after) ∧
    before.getLast? ≠ some '\\' ∧ body.getLast? ≠ some '\\'

theorem getLast?_escapeClosings (body : List Char) :
    (escapeClosings body).getLast? = body.getLast? := by
  induction body with
  | nil => rfl
  | cons c s ih =>
    rw [escapeClosings]
    split <;> simp only [List.getLast?_cons, ih, Option.getD_some]

theorem closing?_eq_none_iff :
    closing? s = none ↔ ∀ body after, s = body ++ '}' :: after → body.getLast? = some '\\' := by
  constructor
  · rintro hnone body after rfl
    by_contra hlast
    obtain ⟨b, between, hclosing⟩ := exists_closing?_append hlast after
    rw [hclosing] at hnone
    cases hnone
  · intro hall
    by_contra hsome
    obtain ⟨⟨body, after⟩, hclosing⟩ := Option.ne_none_iff_exists'.1 hsome
    refine getLast?_of_closing? hclosing ?_
    rw [← getLast?_escapeClosings]
    exact hall _ _ (eq_escapeClosings_of_closing? hclosing)

/-- What stands behind a character that neither begins an opening nor escapes one. -/
theorem standsIn_plain (h : front k (c :: rest) = .plain c rest) :
    StandsIn k (c :: rest) ↔ StandsIn k rest := by
  obtain ⟨hescaped, hopened⟩ := front_eq_plain_iff.1 h
  constructor
  · rintro ⟨before, body, after, hs, hbefore, hbody⟩
    cases before with
    | nil =>
      obtain ⟨rfl, rfl⟩ := List.cons.inj hs
      exact absurd rfl (hopened rfl _)
    | cons d before =>
      obtain ⟨rfl, rfl⟩ := List.cons.inj hs
      refine ⟨before, body, after, rfl, fun hlast => hbefore ?_, hbody⟩
      rw [List.getLast?_cons, hlast]
      rfl
  · rintro ⟨before, body, after, rfl, hbefore, hbody⟩
    refine ⟨c :: before, body, after, rfl, fun hlast => ?_, hbody⟩
    cases before with
    | nil => exact hescaped (Option.some.inj hlast) _ rfl
    | cons d before => exact hbefore (by rwa [List.getLast?_cons_cons] at hlast)

theorem standsIn_escaped (k : Marker) (rest : List Char) :
    StandsIn k ('\\' :: k.mark :: '{' :: rest) ↔ StandsIn k rest := by
  constructor
  · rintro ⟨before, body, after, hs, hbefore, hbody⟩
    rcases before with _ | ⟨c, _ | ⟨d, _ | ⟨e, before⟩⟩⟩
    · exact absurd (List.cons.inj hs).1.symm (mark_ne_backslash k)
    · obtain ⟨rfl, -⟩ := List.cons.inj hs
      exact absurd rfl hbefore
    · obtain ⟨-, hs⟩ := List.cons.inj hs
      obtain ⟨-, hs⟩ := List.cons.inj hs
      exact absurd (List.cons.inj hs).1.symm (mark_ne_brace k)
    · simp only [List.cons_append, List.cons.injEq] at hs
      obtain ⟨-, -, -, rfl⟩ := hs
      refine ⟨before, body, after, rfl, fun hlast => hbefore ?_, hbody⟩
      simp [List.getLast?_cons, hlast]
  · rintro ⟨before, body, after, rfl, hbefore, hbody⟩
    refine ⟨'\\' :: k.mark :: '{' :: before, body, after, rfl, fun hlast => ?_, hbody⟩
    cases before with
    | nil => cases hlast
    | cons c before => exact hbefore (by simpa only [List.getLast?_cons_cons] using hlast)

/-- A closing brace behind an opening closes it, or an earlier one does. -/
theorem standsIn_opened (k : Marker) (rest : List Char) :
    StandsIn k (k.mark :: '{' :: rest) ↔ closing? rest ≠ none := by
  rw [ne_eq, closing?_eq_none_iff]
  constructor
  · rintro ⟨before, body, after, hs, -, hbody⟩ hnone
    rcases before with _ | ⟨c, _ | ⟨d, before⟩⟩
    · simp only [List.nil_append, List.cons.injEq, true_and] at hs
      exact hbody (hnone body after hs)
    · simp only [List.cons_append, List.nil_append, List.cons.injEq] at hs
      exact mark_ne_brace k hs.2.1.symm
    · simp only [List.cons_append, List.cons.injEq] at hs
      have hlast := hnone (before ++ k.mark :: '{' :: body) after (by simp [hs.2.2])
      rw [List.getLast?_append, List.getLast?_cons_cons, List.getLast?_cons] at hlast
      cases hend : body.getLast? with
      | none => simp [hend] at hlast
      | some c =>
        rw [hend] at hbody hlast
        exact hbody hlast
  · intro hall
    simp only [not_forall, exists_prop] at hall
    obtain ⟨body, after, rfl, hbody⟩ := hall
    exact ⟨[], body, after, rfl, nofun, hbody⟩

/-- A marker occurs in a text exactly if it stands there. -/
theorem occursIn_iff_standsIn {s : String} : k.occursIn s = true ↔ StandsIn k s.toList := by
  rw [occursIn_iff]
  induction s.toList using cut_induction k with
  | done => simp [StandsIn]
  | escaped rest ih => simpa [spans_escaped, standsIn_escaped] using ih
  | plain c rest hf ih => simpa [spans_plain hf, standsIn_plain hf] using ih
  | unclosed rest hc => simp [spans_unclosed k hc, standsIn_opened, hc]
  | marker rest body after hc ih => simp [spans_marker k hc, standsIn_opened, hc]

/-! ### What is done with the spans of a text -/

/-- Replacing the markers of a text undoes its escapes, and leaves the other characters alone. -/
theorem toList_replace_eq (k : Marker) (f : String → String) (s : String) :
    (k.replace f s).toList =
      (spans k s.toList).flatMap (Span.fill k fun body => (f (.ofList body)).toList) := by
  rw [toList_replace, ← flatMap_pieces, List.flatMap_assoc]
  refine List.flatMap_congr fun span _ => ?_
  cases span <;> simp [Span.pieces, Span.fill]

theorem length_flatMap_le {α : Type} {f g : α → List Char} {l : List α}
    (h : ∀ a ∈ l, (f a).length ≤ (g a).length) : (l.flatMap f).length ≤ (l.flatMap g).length := by
  induction l with
  | nil => exact Nat.le_refl _
  | cons a l ih =>
    obtain ⟨hfirst, hrest⟩ := List.forall_mem_cons.1 h
    rw [List.flatMap_cons, List.flatMap_cons, List.length_append, List.length_append]
    exact Nat.add_le_add hfirst (ih hrest)

/-- Where each part of one text is at most as long as that of another, the texts are the same only
if all parts are. -/
theorem flatMap_eq_iff_of_length_le {α : Type} {f g : α → List Char} {l : List α}
    (h : ∀ a ∈ l, (f a).length ≤ (g a).length) :
    l.flatMap f = l.flatMap g ↔ ∀ a ∈ l, f a = g a := by
  refine ⟨fun heq => ?_, fun hall => List.flatMap_congr hall⟩
  induction l with
  | nil => exact List.forall_mem_nil _
  | cons a l ih =>
    obtain ⟨hfirst, hrest⟩ := List.forall_mem_cons.1 h
    have hle := length_flatMap_le hrest
    have hlength := congrArg List.length heq
    simp only [List.flatMap_cons, List.length_append] at heq hlength
    have hsame : (f a).length = (g a).length := by
      omega
    obtain ⟨hhead, htail⟩ := List.append_inj heq hsame
    exact List.forall_mem_cons.2 ⟨hhead, ih hrest htail⟩

/-- Undoing the escapes of a text without markers leaves the text as it stands exactly if there are
none. -/
theorem flatMap_fill_eq_iff {s : String} (hs : k.occursIn s = false)
    (f : List Char → List Char) :
    (spans k s.toList).flatMap (Span.fill k f) = s.toList ↔
      .escape ∉ spans k s.toList := by
  have htoken := token_notMem_spans hs
  conv_lhs => rhs; rw [← flatMap_write k s.toList]
  rw [flatMap_eq_iff_of_length_le]
  · constructor
    · intro hall hescape
      have hsame := congrArg List.length (hall _ hescape)
      cases hsame
    · intro hescape span hmem
      cases span with
      | char d => rfl
      | escape => exact absurd hmem hescape
      | token body => exact absurd hmem (htoken body)
  · intro span hmem
    cases span with
    | char d => exact Nat.le_refl _
    | escape => exact Nat.le_succ _
    | token body => exact absurd hmem (htoken body)

end SqlTemplate.Marker
