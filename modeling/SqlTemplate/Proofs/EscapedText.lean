import Mathlib
import SqlTemplate.Proofs.Joining
import SqlTemplate.Proofs.Outcome
import SqlTemplate.Proofs.Spans
import SqlTemplate.Template.Compilation
import SqlTemplate.Template.Rendering

/-!
# Escapes in texts with and without markers

Substitution undoes the escapes of a text, whether or not there is a marker in it. A text that has
no marker is compiled to a fixed text, which is not substituted but written as it stands, so that
its escapes stay. The node of a text therefore writes what substitution gives for the text exactly
if the text has a marker, or has no escape.

## Main definitions

* `Context.filled` : what a marker is replaced by.

## Main results

* `Context.toList_of_substitute` : what substitution gives, span after span.
* `Template.text_renders_substituted_iff` : the node of a text against substitution in the text.
* `Template.lone_escape_is_kept` : an escape in a text without markers.
-/

namespace SqlTemplate

open Text

/-! ### Substitution, span after span -/

namespace Context

/-- What a marker is replaced by, and nothing where that fails. -/
def filled (c : Context) (surroundings : Surroundings) (body : List Char) : List Char :=
  match c.substitution surroundings (.ofList body) with
  | .ok text => text.toList
  | .error _ => []

/-- What pieces are put together to, each marker among them replaced. -/
theorem eq_of_assemble {c : Context} {surroundings : Surroundings} {ps : List Marker.Piece}
    {text : List Char} (h : Marker.assemble (c.substitution surroundings) ps = .ok text) :
    text = ps.flatMap fun
      | .char d => [d]
      | .token body => c.filled surroundings body := by
  induction ps generalizing text with
  | nil => exact (Except.ok.inj h).symm
  | cons p ps ih =>
    cases p with
    | char d =>
      obtain ⟨tail, htail, h⟩ := exists_of_bind_eq_ok h
      rw [← Except.ok.inj h, ih htail]
      rfl
    | token body =>
      obtain ⟨first, hfirst, h⟩ := exists_of_bind_eq_ok h
      obtain ⟨tail, htail, h⟩ := exists_of_bind_eq_ok h
      have hfilled : c.filled surroundings body = first.toList := by
        simp only [filled, hfirst]
      rw [← Except.ok.inj h, ih htail, ← hfilled]
      rfl

/-- The text that substitution gives has its escapes undone, and its markers replaced. -/
theorem toList_of_substitute {c : Context} {surroundings : Surroundings} {s written : String}
    (h : c.substitute surroundings s = .ok written) :
    written.toList = (Marker.spans .substitution s.toList).flatMap
      (Marker.Span.fill .substitution (c.filled surroundings)) := by
  obtain ⟨text, htext, hs⟩ := exists_of_bind_eq_ok ((map_eq_pure_bind ..).symm.trans h)
  rw [← Except.ok.inj hs, String.toList_ofList, eq_of_assemble htext, ← Marker.flatMap_pieces,
    List.flatMap_assoc]
  refine List.flatMap_congr fun span _ => ?_
  cases span <;> simp [Marker.Span.pieces, Marker.Span.fill]

/-- Behind the same text the joins of two fragments are the same only if the fragments are, where
both begin with a blank or neither does. -/
theorem join_cancel {s t u : List Char} (hempty : t = [] ↔ u = [])
    (hblank : startsBlank t = startsBlank u) (h : join s t = join s u) : t = u := by
  by_cases ht : t = []
  · rw [ht, hempty.1 ht]
  · have hgap : gap s t = gap s u := by
      rw [gap, gap, hblank]
    rw [join_eq s ht, join_eq s (mt hempty.2 ht), hgap] at h
    exact List.append_cancel_left h

end Context

namespace Template

variable {surroundings : Surroundings} {c : Context} {s written : String}

theorem gives_render_text (h : c.substitute surroundings s = .ok written) :
    ((Template.text s).render surroundings).Gives c true (c.write written) := by
  rw [render]
  exact Evaluation.gives_bind.2 ⟨written, c, Evaluation.gives_read.2 ⟨h, rfl⟩,
    Evaluation.gives_bind.2 ⟨⟨⟩, _, Evaluation.gives_write.2 rfl,
      Evaluation.gives_pure.2 ⟨rfl, rfl⟩⟩⟩

theorem gives_render_fixed (surroundings : Surroundings) (c : Context) (s : String) :
    ((Template.fixed s).render surroundings).Gives c true (c.write s) := by
  rw [render]
  exact Evaluation.gives_bind.2 ⟨⟨⟩, _, Evaluation.gives_write.2 rfl,
    Evaluation.gives_pure.2 ⟨rfl, rfl⟩⟩

/-- With or without its escapes, a text without markers is empty or not, and begins with a blank or
not: an escape begins with no blank, and leaves something that begins with none. -/
theorem front_fill {s : String} (hs : Marker.substitution.occursIn s = false)
    (f : List Char → List Char) :
    let t := (Marker.spans .substitution s.toList).flatMap (Marker.Span.fill .substitution f)
    (s.toList = [] ↔ t = []) ∧ startsBlank s.toList = startsBlank t := by
  intro t
  have htoken := Marker.token_notMem_spans hs
  rw [← Marker.flatMap_write .substitution s.toList]
  simp only [t]
  cases hspans : Marker.spans .substitution s.toList with
  | nil => exact ⟨Iff.rfl, rfl⟩
  | cons span l =>
    rw [hspans] at htoken
    cases span with
    | char d => exact ⟨by simp [Marker.Span.write, Marker.Span.fill], rfl⟩
    | escape => exact ⟨by simp [Marker.Span.write, Marker.Span.fill], rfl⟩
    | token body => exact absurd (List.mem_cons_self ..) (htoken body)

/-- **Texts and substitution.** Where substitution in a text succeeds, it undoes the escapes of the
text and replaces its markers. The node that the text is compiled to writes what substitution gives,
if there is a marker in the text, and else the text as it stands. It writes what substitution gives
exactly if there is a marker in the text, or no escape. -/
theorem text_renders_substituted_iff (h : c.substitute surroundings s = .ok written) :
    written.toList = (Marker.spans .substitution s.toList).flatMap
      (Marker.Span.fill .substitution (c.filled surroundings)) ∧
    ∃ node, compile (.text s) = .ok node ∧
      (Marker.substitution.occursIn s = true →
        (node.render surroundings).Gives c true (c.write written)) ∧
      (Marker.substitution.occursIn s = false →
        (node.render surroundings).Gives c true (c.write s)) ∧
      ((node.render surroundings).Gives c true (c.write written) ↔
        Marker.substitution.occursIn s = true ∨
          .escape ∉ Marker.spans .substitution s.toList) := by
  have hwritten := Context.toList_of_substitute h
  refine ⟨hwritten, ofText s, by rw [compile], ?_⟩
  cases hs : Marker.substitution.occursIn s with
  | true =>
    have hgives : ((ofText s).render surroundings).Gives c true (c.write written) := by
      rw [ofText, hs]
      exact gives_render_text h
    exact ⟨fun _ => hgives, nofun, fun _ => .inl rfl, fun _ => hgives⟩
  | false =>
    have hgives : ((ofText s).render surroundings).Gives c true (c.write s) := by
      rw [ofText, hs]
      exact gives_render_fixed surroundings c s
    refine ⟨nofun, fun _ => hgives, ?_⟩
    rw [← Marker.flatMap_fill_eq_iff hs (c.filled surroundings), ← hwritten]
    constructor
    · intro hsame
      have hsql := congrArg (fun m => m.sql.toList) (Evaluation.Gives.unique hgives hsame).2
      simp only [Context.toList_write_sql] at hsql
      -- Both are written behind the same SQL, and a space comes before both or before neither.
      obtain ⟨hempty, hblank⟩ := front_fill hs (c.filled surroundings)
      rw [← hwritten] at hempty hblank
      exact .inr (Context.join_cancel hempty hblank hsql).symm
    · rintro (hcon | hsame)
      · cases hcon
      · rw [String.toList_injective hsame]
        exact hgives

/-- A text with an escape and a marker, and one with the escape alone: the first is written as
substitution gives it, the second is not. -/
theorem text_renders_substituted_iff_beside_marker :
    let c : Context := .initial none
    let surroundings : Surroundings :=
      { parameter := .object [("y", .ofInt 7)], evaluator := .naming }
    (c.substitute surroundings "\\${x}${y}" = .ok "${x}7" ∧
      ∃ node, compile (.text "\\${x}${y}") = .ok node ∧
        (node.render surroundings).Gives c true (c.write "${x}7")) ∧
    (c.substitute surroundings "\\${x}" = .ok "${x}" ∧
      ∃ node, compile (.text "\\${x}") = .ok node ∧
        ¬ (node.render surroundings).Gives c true (c.write "${x}")) := by
  intro c surroundings
  have hbeside : c.substitute surroundings "\\${x}${y}" = .ok "${x}7" := by
    cbv
  have hlone : c.substitute surroundings "\\${x}" = .ok "${x}" := by
    cbv
  obtain ⟨-, node, hnode, hmarked, -, -⟩ := text_renders_substituted_iff hbeside
  obtain ⟨-, node', hnode', -, -, hiff⟩ := text_renders_substituted_iff hlone
  refine ⟨⟨hbeside, node, hnode, hmarked (by decide +kernel)⟩, hlone, node', hnode', fun h => ?_⟩
  exact absurd (hiff.1 h) (by decide +kernel)

/-- An escape in a text without markers is kept, where it is undone by substitution, and undone if
there is a marker elsewhere in the text. -/
theorem lone_escape_is_kept :
    let c : Context := .initial none
    let surroundings : Surroundings :=
      { parameter := .object [("y", .ofInt 7)], evaluator := .naming }
    c.substitute surroundings "\\${x}" = .ok "${x}" ∧
      ((compile (.text "\\${x}")).map fun node => ((node.render surroundings).run c).2.sql) =
        .ok "\\${x}" ∧
      ((compile (.text "\\${x}${y}")).map fun node => ((node.render surroundings).run c).2.sql) =
        .ok "${x}7" := by
  refine ⟨?_, ?_, ?_⟩ <;> cbv

end Template

end SqlTemplate
