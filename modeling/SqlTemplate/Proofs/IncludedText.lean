import Mathlib
import SqlTemplate.Catalog.Inclusion
import SqlTemplate.Proofs.Spans

/-!
# Properties in included texts

The properties of an `include` element are to replace the markers of their names and to leave the
rest of a text as it stands: other markers, escapes and the backslashes in bodies. Such a
replacement goes from span to span, and if the values of the properties have nothing to do with
markers, the text that it gives has the markers and the escapes of the text before, but for those
replaced.

The substitution of properties goes through the pieces of a text instead, and so it undoes escapes
and writes the bodies of other markers without their backslashes. It is the replacement exactly if
there was nothing to undo.

## Main definitions

* `Marker.replaceSpans` : the spans of a text with values in the place of some markers.
* `Marker.Inert` : a value that neither opens a marker nor escapes one.
* `Inclusion.named` : the value of the property that a marker names.

## Main results

* `Marker.spans_replaceSpans` : a replacement by inert values leaves all other spans alone.
* `Inclusion.substitute_leaves_others_iff` : the substitution of properties against the replacement
  of their markers.
-/

namespace SqlTemplate

open Text

namespace Marker

variable {k : Marker} {g : List Char → Option (List Char)} {s rest body after value : List Char}
  {c : Char}

/-! ### Replacing some markers -/

/-- A span with a value in the place of its marker, where there is one for its body. -/
def Span.replace (g : List Char → Option (List Char)) : Span → List Span
  | .char c => [.char c]
  | .escape => [.escape]
  | .token body => match g body with
    | some value => value.map .char
    | none => [.token body]

/-- The spans of a text with values in the place of the markers that there are values for. -/
def replaceSpans (k : Marker) (g : List Char → Option (List Char)) (s : List Char) : List Span :=
  (spans k s).flatMap (Span.replace g)

/-- The text that a replacement gives. -/
def replaced (k : Marker) (g : List Char → Option (List Char)) (s : List Char) : List Char :=
  (replaceSpans k g s).flatMap (Span.write k)

theorem flatMap_write_chars (k : Marker) (s : List Char) :
    (s.map Span.char).flatMap (Span.write k) = s := by
  rw [List.flatMap_map]
  exact List.flatMap_singleton' s

theorem replaceSpans_chars (g : List Char → Option (List Char)) (s : List Char) :
    (s.map Span.char).flatMap (Span.replace g) = s.map .char := by
  rw [List.flatMap_map]
  exact List.map_eq_flatMap.symm

theorem replaceSpans_escaped (rest : List Char) :
    replaceSpans k g ('\\' :: k.mark :: '{' :: rest) = .escape :: replaceSpans k g rest := by
  rw [replaceSpans, spans_escaped]
  rfl

theorem replaceSpans_plain (h : front k (c :: rest) = .plain c rest) :
    replaceSpans k g (c :: rest) = .char c :: replaceSpans k g rest := by
  rw [replaceSpans, spans_plain h]
  rfl

theorem replaceSpans_unclosed (h : closing? rest = none) :
    replaceSpans k g (k.mark :: '{' :: rest) = (k.mark :: '{' :: rest).map .char := by
  rw [replaceSpans, spans_unclosed k h, replaceSpans_chars]

theorem replaceSpans_known (h : closing? rest = some (body, after)) (hg : g body = some value) :
    replaceSpans k g (k.mark :: '{' :: rest) = value.map .char ++ replaceSpans k g after := by
  rw [replaceSpans, spans_marker k h, List.flatMap_cons, Span.replace, hg]
  rfl

theorem replaceSpans_unknown (h : closing? rest = some (body, after)) (hg : g body = none) :
    replaceSpans k g (k.mark :: '{' :: rest) = .token body :: replaceSpans k g after := by
  rw [replaceSpans, spans_marker k h, List.flatMap_cons, Span.replace, hg]
  rfl

/-! ### Inert values -/

/-- A value that stands in a text without opening a marker, with or without what is around it, and
without escaping one. -/
structure Inert (k : Marker) (value : List Char) : Prop where
  /-- What is on either side of an empty value comes together. -/
  ne_nil : value ≠ []
  /-- There may be a mark in front of the value. -/
  head_ne : value.head? ≠ some '{'
  mark_notMem : k.mark ∉ value
  backslash_notMem : '\\' ∉ value

/-- Characters that are neither marks nor backslashes are spans of their own. -/
theorem spans_append (hmark : k.mark ∉ value) (hback : '\\' ∉ value) (t : List Char) :
    spans k (value ++ t) = value.map .char ++ spans k t := by
  induction value with
  | nil => rfl
  | cons c value ih =>
    rw [List.mem_cons, not_or] at hmark hback
    have hplain : front k (c :: (value ++ t)) = .plain c (value ++ t) :=
      front_eq_plain_iff.2 ⟨fun h => absurd h.symm hback.1, fun h => absurd h.symm hmark.1⟩
    rw [List.cons_append, spans_plain hplain, ih hmark.2 hback.2]
    rfl

/-- A body in a text is closed where it was closed before, whatever comes behind it. -/
theorem spans_write_token (h : closing? rest = some (body, after)) (t : List Char) :
    spans k (Span.write k (.token body) ++ t) = .token body :: spans k t := by
  have hclosing := closing?_escapeClosings (getLast?_of_closing? h) t
  rw [Span.write, List.cons_append, List.cons_append, List.append_assoc, List.singleton_append,
    spans_marker k hclosing]

section Inert

variable (hg : ∀ body value, g body = some value → Inert k value)
include hg

/-- A brace at the front of a text after a replacement was there before. -/
theorem exists_of_replaced_eq_brace {r : List Char} (h : replaced k g s = '{' :: r) :
    ∃ r', s = '{' :: r' := by
  induction s using cut_induction k with
  | done =>
    rw [replaced, replaceSpans, spans_nil] at h
    cases h
  | escaped rest _ =>
    rw [replaced, replaceSpans_escaped] at h
    exact absurd (List.cons.inj h).1 (by decide)
  | plain c rest hf _ =>
    rw [replaced, replaceSpans_plain hf] at h
    exact ⟨rest, congrArg (· :: rest) (List.cons.inj h).1⟩
  | unclosed rest hc =>
    rw [replaced, replaceSpans_unclosed hc] at h
    exact absurd (List.cons.inj h).1 (mark_ne_brace k)
  | marker rest body after hc _ =>
    cases hvalue : g body with
    | none =>
      rw [replaced, replaceSpans_unknown hc hvalue] at h
      exact absurd (List.cons.inj h).1 (mark_ne_brace k)
    | some value =>
      rw [replaced, replaceSpans_known hc hvalue, List.flatMap_append, flatMap_write_chars] at h
      have hinert := hg body value hvalue
      obtain ⟨d, value, rfl⟩ := List.exists_cons_of_ne_nil hinert.ne_nil
      exact absurd (congrArg some (List.cons.inj h).1) hinert.head_ne

/-- An opening at the front of a text after a replacement was there before. -/
theorem exists_of_replaced_eq_opening {r : List Char} (h : replaced k g s = k.mark :: '{' :: r) :
    ∃ r', s = k.mark :: '{' :: r' := by
  induction s using cut_induction k with
  | done =>
    rw [replaced, replaceSpans, spans_nil] at h
    cases h
  | escaped rest _ =>
    rw [replaced, replaceSpans_escaped] at h
    exact absurd (List.cons.inj h).1.symm (mark_ne_backslash k)
  | plain c rest hf _ =>
    rw [replaced, replaceSpans_plain hf] at h
    obtain ⟨rfl, hrest⟩ := List.cons.inj h
    obtain ⟨r', rfl⟩ := exists_of_replaced_eq_brace hg hrest
    exact ⟨r', rfl⟩
  | unclosed rest _ => exact ⟨rest, rfl⟩
  | marker rest body after _ _ => exact ⟨rest, rfl⟩

/-- A replacement by inert values leaves all other spans alone: there are no other markers and no
other escapes in the text afterwards than there were before. -/
theorem spans_replaceSpans (s : List Char) :
    spans k (replaced k g s) = replaceSpans k g s := by
  induction s using cut_induction k with
  | done =>
    rw [replaced, replaceSpans, spans_nil]
    exact spans_nil k
  | escaped rest ih =>
    rw [replaced, replaceSpans_escaped, List.flatMap_cons, ← replaced]
    exact (spans_escaped k _).trans (congrArg _ ih)
  | plain c rest hf ih =>
    obtain ⟨hescaped, hopened⟩ := front_eq_plain_iff.1 hf
    -- What comes behind `c` opens a marker, or has a brace in front, only if it did before.
    have hplain : front k (c :: replaced k g rest) = .plain c (replaced k g rest) := by
      refine front_eq_plain_iff.2 ⟨fun hback r hr => ?_, fun hmark r hr => ?_⟩
      · obtain ⟨r', rfl⟩ := exists_of_replaced_eq_opening hg hr
        exact hescaped hback r' rfl
      · obtain ⟨r', rfl⟩ := exists_of_replaced_eq_brace hg hr
        exact hopened hmark r' rfl
    rw [replaced, replaceSpans_plain hf, List.flatMap_cons, ← replaced]
    exact (spans_plain hplain).trans (congrArg _ ih)
  | unclosed rest hc =>
    rw [replaced, replaceSpans_unclosed hc, flatMap_write_chars, spans_unclosed k hc]
  | marker rest body after hc ih =>
    cases hvalue : g body with
    | none =>
      rw [replaced, replaceSpans_unknown hc hvalue, List.flatMap_cons, ← replaced,
        spans_write_token hc, ih]
    | some value =>
      have hinert := hg body value hvalue
      rw [replaced, replaceSpans_known hc hvalue, List.flatMap_append, flatMap_write_chars,
        ← replaced, spans_append hinert.mark_notMem hinert.backslash_notMem, ih]

end Inert

/-! ### Replacing all markers, and writing those without a value -/

theorem length_le_escapeClosings (body : List Char) :
    body.length ≤ (escapeClosings body).length := by
  induction body with
  | nil => exact Nat.le_refl _
  | cons c body ih =>
    rw [escapeClosings]
    split <;> simp only [List.length_cons] <;> omega

theorem escapeClosings_eq_self_iff : escapeClosings body = body ↔ '}' ∉ body := by
  induction body with
  | nil => exact iff_of_true rfl List.not_mem_nil
  | cons c body ih =>
    rw [escapeClosings]
    split
    · rename_i hc
      subst hc
      exact iff_of_false (fun h => absurd (List.cons.inj h).1 (by decide))
        fun h => h (List.mem_cons_self ..)
    · rename_i hc
      rw [List.cons.injEq, eq_self, true_and, ih, List.mem_cons, not_or]
      exact ⟨fun h => ⟨Ne.symm hc, h⟩, And.right⟩

/-- A marker with its value in its place, or written with its body as it is handed on. -/
def rewritten (k : Marker) (g : List Char → Option (List Char)) (body : List Char) : List Char :=
  (g body).getD (k.mark :: '{' :: (body ++ ['}']))

/-- Filling all markers undoes escapes. It gives the text of the replacement exactly if there is no
escape, and no closing brace in the body of a marker that has no value. -/
theorem flatMap_rewritten_eq_iff (k : Marker) (g : List Char → Option (List Char))
    (s : List Char) :
    (spans k s).flatMap (Span.fill k (rewritten k g)) = replaced k g s ↔
      .escape ∉ spans k s ∧ ∀ body, .token body ∈ spans k s → g body = none → '}' ∉ body := by
  have hknown {body value : List Char} (hvalue : g body = some value) :
      Span.fill k (rewritten k g) (.token body) =
        (Span.replace g (.token body)).flatMap (Span.write k) := by
    rw [Span.replace, hvalue, flatMap_write_chars, Span.fill, rewritten, hvalue, Option.getD_some]
  have hunknown {body : List Char} (hvalue : g body = none) :
      Span.fill k (rewritten k g) (.token body) = k.mark :: '{' :: (body ++ ['}']) ∧
        (Span.replace g (.token body)).flatMap (Span.write k) =
          k.mark :: '{' :: (escapeClosings body ++ ['}']) := by
    rw [Span.replace, hvalue, Span.fill, rewritten, hvalue, Option.getD_none,
      List.flatMap_singleton]
    exact ⟨rfl, rfl⟩
  rw [replaced, replaceSpans, List.flatMap_assoc, flatMap_eq_iff_of_length_le]
  · constructor
    · intro hall
      refine ⟨fun hmem => ?_, fun body hmem hvalue => ?_⟩
      · have hsame := congrArg List.length (hall _ hmem)
        cases hsame
      · have hsame := hall _ hmem
        rw [(hunknown hvalue).1, (hunknown hvalue).2] at hsame
        simp only [List.cons.injEq, true_and, List.append_cancel_right_eq] at hsame
        exact escapeClosings_eq_self_iff.1 hsame.symm
    · rintro ⟨hescape, hbodies⟩ span hmem
      cases span with
      | char d => rfl
      | escape => exact absurd hmem hescape
      | token body =>
        cases hvalue : g body with
        | some value => exact hknown hvalue
        | none =>
          rw [(hunknown hvalue).1, (hunknown hvalue).2,
            escapeClosings_eq_self_iff.2 (hbodies body hmem hvalue)]
  · intro span hmem
    cases span with
    | char d => exact Nat.le_refl _
    | escape => exact Nat.le_succ _
    | token body =>
      cases hvalue : g body with
      | some value => rw [hknown hvalue]
      | none =>
        have hle := length_le_escapeClosings body
        rw [(hunknown hvalue).1, (hunknown hvalue).2]
        simp only [List.length_cons, List.length_append, List.length_nil]
        omega

/-- Where no marker has a value, a replacement leaves the text as it is. -/
theorem replaced_eq_self (h : ∀ body, .token body ∈ spans k s → g body = none) :
    replaced k g s = s := by
  have hkept : replaceSpans k g s = (spans k s).flatMap fun span => [span] := by
    refine List.flatMap_congr fun span hmem => ?_
    cases span with
    | char d => rfl
    | escape => rfl
    | token body => rw [Span.replace, h body hmem]
  rw [replaced, hkept, List.flatMap_singleton', flatMap_write]

end Marker

namespace Inclusion

variable {properties : Properties} {text : String}

/-- The value of the property that a marker names. -/
def named (properties : Properties) (body : List Char) : Option (List Char) :=
  (properties.find? (trimmed (.ofList body))).map String.toList

theorem toList_property (properties : Properties) (body : List Char) :
    (property properties (.ofList body)).toList =
      Marker.rewritten .substitution (named properties) body := by
  rw [property, Marker.rewritten, named]
  cases properties.find? (trimmed (.ofList body)) with
  | some value => rfl
  | none => simp [Marker.write]

theorem substitute_left_alone (h : properties = [] ∨ Marker.substitution.occursIn text = false) :
    substitute properties text = text := by
  have hcond : (properties.isEmpty || !Marker.substitution.occursIn text) = true := by
    simpa using h
  rw [substitute, if_pos hcond]

/-- Where there is a property and a marker, the substitution fills all markers of a text. -/
theorem toList_substitute (h : ¬(properties = [] ∨ Marker.substitution.occursIn text = false)) :
    (substitute properties text).toList = (Marker.spans .substitution text.toList).flatMap
      (Marker.Span.fill .substitution (Marker.rewritten .substitution (named properties))) := by
  have hcond : ¬(properties.isEmpty || !Marker.substitution.occursIn text) = true := by
    simpa using h
  rw [substitute, if_neg hcond, Marker.toList_replace_eq]
  simp only [toList_property]

/-- No marker is replaced where there are no properties or no markers. -/
theorem replaced_named_eq_self
    (h : properties = [] ∨ Marker.substitution.occursIn text = false) :
    Marker.replaced .substitution (named properties) text.toList = text.toList := by
  refine Marker.replaced_eq_self fun body hmem => ?_
  rcases h with rfl | htext
  · rfl
  · exact absurd hmem (Marker.token_notMem_spans htext body)

/-- **Properties touch their own markers.** Without properties and without a marker, a text is left
as it stands. Else its escapes are undone, each marker that names a property is replaced by its
value, and each other marker is written again, its body without backslashes. This is the text with
the properties in the place of their markers, and all else as it stands, exactly if there are no
properties or no markers, or else no escapes and no closing braces in the bodies of other markers.
And if the values are inert, that text has the markers and the escapes of the text before, but for
the markers replaced. -/
theorem substitute_leaves_others_iff (properties : Properties) (text : String) :
    (substitute properties text).toList =
        (if properties = [] ∨ Marker.substitution.occursIn text = false then text.toList
        else (Marker.spans .substitution text.toList).flatMap
          (Marker.Span.fill .substitution
            (Marker.rewritten .substitution (named properties)))) ∧
      ((substitute properties text).toList =
          Marker.replaced .substitution (named properties) text.toList ↔
        properties = [] ∨ Marker.substitution.occursIn text = false ∨
          .escape ∉ Marker.spans .substitution text.toList ∧
            ∀ body, .token body ∈ Marker.spans .substitution text.toList →
              named properties body = none → '}' ∉ body) ∧
      ((∀ body value, named properties body = some value → Marker.Inert .substitution value) →
        Marker.spans .substitution (Marker.replaced .substitution (named properties) text.toList) =
          Marker.replaceSpans .substitution (named properties) text.toList) := by
  refine ⟨?_, ?_, fun hinert => Marker.spans_replaceSpans hinert text.toList⟩
  · split
    · rename_i hleft
      rw [substitute_left_alone hleft]
    · rename_i hfilled
      exact toList_substitute hfilled
  · rw [← or_assoc]
    by_cases hleft : properties = [] ∨ Marker.substitution.occursIn text = false
    · refine iff_of_true ?_ (.inl hleft)
      rw [substitute_left_alone hleft, replaced_named_eq_self hleft]
    · rw [toList_substitute hleft, Marker.flatMap_rewritten_eq_iff, or_iff_right hleft]

/-- A text with a marker that names a property, and one that does not. -/
theorem substitute_leaves_others_iff_of_number :
    let properties : Properties := [("p", "1")]
    (∀ body value, named properties body = some value → Marker.Inert .substitution value) ∧
      substitute properties "${ p } ${y}" = "1 ${y}" ∧
      Marker.spans .substitution (substitute properties "${ p } ${y}").toList =
        [.char '1', .char ' ', .token ['y']] := by
  intro properties
  have hinert (body value : List Char) (h : named properties body = some value) :
      Marker.Inert .substitution value := by
    obtain ⟨one, hone, rfl⟩ := Option.map_eq_some_iff.1 h
    obtain rfl : one = "1" := by
      simp only [properties, Entries.find?] at hone
      split at hone
      · exact (Option.some.inj hone).symm
      · cases hone
    exact ⟨by decide, by decide, by decide, by decide⟩
  have htext : Marker.spans .substitution "${ p } ${y}".toList =
      [.token [' ', 'p', ' '], .char ' ', .token ['y']] := by
    decide +kernel
  obtain ⟨-, hexact, hspans⟩ := substitute_leaves_others_iff properties "${ p } ${y}"
  rw [htext] at hexact
  refine ⟨hinert, by cbv, ?_⟩
  rw [hexact.2 (.inr (.inr ⟨by decide, fun body hmem _ => ?_⟩)), hspans hinert]
  · decide +kernel
  · obtain rfl | rfl : body = [' ', 'p', ' '] ∨ body = ['y'] := by
      simpa using hmem
    all_goals decide

/-- An escape and an escaped closing brace beside a marker that names a property. The escape is
undone and leaves a marker that was not there before, and the brace that is no longer escaped
closes its marker. Without the property, and without the marker, both stay. -/
theorem substitute_undoes_escapes :
    substitute [("p", "1")] "\\${x}" = "\\${x}" ∧
      substitute [("p", "1")] "\\${x} ${p}" = "${x} 1" ∧
      Marker.substitution.bodies "\\${x} ${p}" = ["p"] ∧
      Marker.substitution.bodies (substitute [("p", "1")] "\\${x} ${p}") = ["x"] ∧
      substitute [] "$\x7b'\\\x7d'\x7d ${p}" = "$\x7b'\\\x7d'\x7d ${p}" ∧
      substitute [("p", "1")] "$\x7b'\\\x7d'\x7d ${p}" = "$\x7b'\x7d'\x7d 1" ∧
      Marker.substitution.bodies "$\x7b'\\\x7d'\x7d ${p}" = ["'\x7d'", "p"] ∧
      Marker.substitution.bodies (substitute [("p", "1")] "$\x7b'\\\x7d'\x7d ${p}") = ["'"] := by
  refine ⟨?_, ?_, ?_, ?_, ?_, ?_, ?_, ?_⟩ <;> decide +kernel

end Inclusion

end SqlTemplate
