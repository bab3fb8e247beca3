import Mathlib
import SqlTemplate.Proofs.Passes
import SqlTemplate.Proofs.WrittenText
import SqlTemplate.Statement.Source

/-!
# Escapes in loops

An iteration goes over the text of its body once to point placeholders at itself, and each loop
around it goes over that text once more. To a text in which no placeholder begins with a name of
the loops these are passes and nothing else. A text that is written by itself is cut once, when it
is bound; a text from a loop is cut after a pass, so its escapes are gone by then.

## Main definitions

* `RootedAt` : the property of a placeholder begins with a name.
* `Marker.BindsAlike` : binding makes the same of two texts.

## Main results

* `Loop.iterationText_of_not_rooted` : an iteration is a pass over such a text.
* `Template.loop_binds_alike_iff` : when a text in a loop is bound as it is outside of loops.
* `Template.escaped_marker_is_bound` : an escaped placeholder in a loop is bound.
-/

namespace SqlTemplate

open Text

/-! ### What binding makes of a text -/

namespace Marker

variable {s t : List Char}

/-- Binding makes the same of two texts: the same SQL in every style and wherever the count of the
placeholders stands, and the same bodies in order, from which the mappings are read. -/
def BindsAlike (s t : List Char) : Prop :=
  (∀ style n, number style n (pieces .placeholder s) = number style n (pieces .placeholder t)) ∧
    bodies .placeholder (.ofList s) = bodies .placeholder (.ofList t)

theorem number_question (n : Nat) (body : List Char) (ps : List Piece) :
    number .question n (.token body :: ps) = '?' :: number .question (n + 1) ps := by
  simp [number, PlaceholderStyle.write]

theorem number_dollar (n : Nat) (body : List Char) (ps : List Piece) :
    number .dollar n (.token body :: ps) =
      '$' :: ((toString (n + 1)).toList ++ number .dollar (n + 1) ps) := by
  simp [number, PlaceholderStyle.write]

/-- Pieces with the same numbering in both styles and the same bodies are the same: no character
looks like a placeholder in one style and like a placeholder in the other. -/
theorem eq_of_number {ps qs : List Piece} {n : Nat}
    (hquestion : number .question n ps = number .question n qs)
    (hdollar : number .dollar n ps = number .dollar n qs)
    (hbodies : (ps.filterMap fun
        | .char _ => none
        | .token body => some (String.ofList body)) =
      qs.filterMap fun
        | .char _ => none
        | .token body => some (String.ofList body)) : ps = qs := by
  induction ps generalizing qs n with
  | nil =>
    cases qs with
    | nil => rfl
    | cons q qs =>
      cases q with
      | char d => cases hquestion
      | token body =>
        rw [number_question] at hquestion
        cases hquestion
  | cons p ps ih =>
    cases p with
    | char c =>
      cases qs with
      | nil => cases hquestion
      | cons q qs =>
        cases q with
        | char d =>
          obtain ⟨rfl, hq⟩ := List.cons.inj hquestion
          rw [ih hq (List.cons.inj hdollar).2 hbodies]
        | token body =>
          rw [number_question] at hquestion
          rw [number_dollar] at hdollar
          have hc : c = '?' := (List.cons.inj hquestion).1
          have hd : c = '$' := (List.cons.inj hdollar).1
          exact absurd (hc.symm.trans hd) (by decide)
    | token body =>
      rw [number_question] at hquestion
      rw [number_dollar] at hdollar
      cases qs with
      | nil => cases hquestion
      | cons q qs =>
        cases q with
        | char d =>
          have hc : '?' = d := (List.cons.inj hquestion).1
          have hd : '$' = d := (List.cons.inj hdollar).1
          exact absurd (hc.trans hd.symm) (by decide)
        | token body' =>
          rw [number_question] at hquestion
          rw [number_dollar] at hdollar
          have hbody : body = body' := String.ofList_injective (List.cons.inj hbodies).1
          rw [hbody, ih (List.cons.inj hquestion).2
            (List.append_cancel_left (List.cons.inj hdollar).2) (List.cons.inj hbodies).2]

theorem bindsAlike_iff :
    BindsAlike s t ↔ pieces .placeholder s = pieces .placeholder t := by
  constructor
  · rintro ⟨hnumber, hbodies⟩
    rw [bodies, bodies, String.toList_ofList, String.toList_ofList] at hbodies
    exact eq_of_number (hnumber .question 0) (hnumber .dollar 0) hbodies
  · intro h
    refine ⟨fun style n => by rw [h], ?_⟩
    rw [bodies, bodies, String.toList_ofList, String.toList_ofList, h]

theorem bindPlaceholders_congr (h : BindsAlike s t) (style : PlaceholderStyle)
    (hint : Option String) :
    bindPlaceholders style hint (.ofList s) = bindPlaceholders style hint (.ofList t) := by
  rw [bindPlaceholders, bindPlaceholders, h.2, String.toList_ofList, String.toList_ofList, h.1]

end Marker

/-! ### Placeholders that begin with another name -/

/-- The property that the body of a placeholder names begins with a name. -/
def RootedAt (name : String) (body : String) : Prop :=
  ∃ rest, trimStart body.toList = name.toList ++ rest ∧ endsRoot rest = true

theorem renamed?_of_not_rooted {name body : String} (h : ¬ RootedAt name body) (n : Nat) :
    renamed? name n body = none := by
  rw [renamed?]
  split
  · rename_i rest hrest
    rw [if_neg fun hend => h ⟨rest, after?_eq_some_iff.1 hrest, hend⟩]
  · rfl

namespace Loop

variable {loop : Loop}

theorem renameBody_of_not_rooted {body : String} (h : ∀ x ∈ loop.names, ¬ RootedAt x body)
    (n : Nat) : loop.renameBody n body = body := by
  have hnone (x? : Option String) (hx? : ∀ x, x? = some x → x ∈ loop.names) :
      x?.bind (renamed? · n body) = none := by
    cases x? with
    | none => rfl
    | some x => exact renamed?_of_not_rooted (h x (hx? x rfl)) n
  have hitem := hnone loop.item fun x hx => by simp [names, hx]
  have hindex := hnone loop.index fun x hx => by simp [names, hx]
  rw [renameBody, hitem, hindex]
  rfl

/-- No placeholder of a text begins with a name of a loop. -/
def Ignores (loop : Loop) (text : List Char) : Prop :=
  ∀ body ∈ Marker.bodies .placeholder (.ofList text), ∀ x ∈ loop.names, ¬ RootedAt x body

/-- Where no placeholder begins with a name of the loop, an iteration is a pass, trimmed. -/
theorem iterationText_of_not_rooted {text : List Char} (h : loop.Ignores text) (n : Nat) :
    loop.iterationText n text = Marker.placeholder.pass (trim text) := by
  rw [iterationText, Marker.refill_eq_pass, Marker.trim_pass]
  intro body hbody
  have hmem : String.ofList body ∈ Marker.bodies .placeholder (.ofList text) := by
    rw [Marker.bodies, String.toList_ofList]
    exact List.mem_filterMap.2 ⟨.token body, hbody, rfl⟩
  rw [renameChars, renameBody_of_not_rooted (h _ hmem) n, String.toList_ofList]

end Loop

namespace Template

variable {surroundings : Surroundings} {loop : Loop} {t : String} {c : Context}
  {entries : List (Value × Value)}

/-- The iterations of a loop over a fixed text succeed, and each comes to a pass over it. -/
theorem exists_gives_traceAll_fixed (ht : loop.Ignores t.toList) (c : Context)
    (entries : List (Value × Value)) :
    ∃ results c', (loop.traceAll ((Template.fixed t).trace surroundings) entries).Gives
      c results c' ∧ Trace.roundTexts loop (results.map (·.1)) =
        List.replicate entries.length (Marker.placeholder.pass (trim t.toList)) := by
  induction entries generalizing c with
  | nil => exact ⟨[], c, Loop.gives_traceAll_nil.2 ⟨rfl, rfl⟩, rfl⟩
  | cons entry rest ih =>
    let m := (loop.enter entry c).write t
    obtain ⟨others, c', hrest, htexts⟩ := ih { m with sql := c.sql }
    refine ⟨_, c', Loop.gives_traceAll_cons.2 ⟨.wrote t, m, others,
      gives_trace_fixed.2 ⟨rfl, rfl⟩, hrest, rfl⟩, ?_⟩
    rw [List.map_cons, Trace.roundTexts, htexts, Trace.text,
      Loop.iterationText_of_not_rooted ht, List.length_cons, List.replicate_succ]

/-- **Texts in loops.** A loop over a fixed text in which no placeholder begins with a name of the
loop succeeds, and comes to a pass over the trimmed text for each entry. What is bound in its place
is what would be bound outside of loops exactly if the text is lasting, where it stands by itself,
and exactly if it has no escapes to lose, where anything may stand around it. This holds however
many loops stand around this one and go over the text again. -/
theorem loop_binds_alike_iff (ht : loop.Ignores t.toList)
    (hentries : loop.entries surroundings c = .ok entries) (hne : entries ≠ []) :
    let own := trim t.toList
    (∃ c', ((Template.loop loop (.fixed t)).render surroundings).Gives c true c' ∧
      c'.sql.toList = Context.join c.sql.toList
        (loop.put (List.replicate entries.length (Marker.placeholder.pass own)))) ∧
    ∀ outer, let left := (Marker.placeholder.pass)^[outer + 1] own
      (Marker.BindsAlike left own ↔ Marker.Lasting .placeholder own) ∧
      (Marker.Lasting .placeholder own → ∀ style hint,
        bindPlaceholders style hint (.ofList left) = bindPlaceholders style hint (.ofList own)) ∧
      ((∀ before after, Marker.BindsAlike (before ++ left ++ after) (before ++ own ++ after)) ↔
        Marker.placeholder.pass own = own) := by
  intro own
  constructor
  · obtain ⟨results, m, hall, htexts⟩ :=
      @exists_gives_traceAll_fixed surroundings loop t ht c entries
    have htrace : ((Template.loop loop (.fixed t)).trace surroundings).Gives c
        (.loop loop (results.map (·.1))) ((loop.restore c m).write
          (loop.assemble ((results.map (·.2)).filter (!·.isEmpty)))) :=
      gives_trace_loop.2 ⟨entries, hentries, Or.inr ⟨hne, results, m, hall, rfl, rfl⟩⟩
    have hsome : (results.map (·.1)).isEmpty = false := by
      cases results with
      | nil => exact absurd (List.length_eq_zero_iff.1 (Loop.length_of_traceAll hall).symm) hne
      | cons result rest => rfl
    refine ⟨_, gives_render.2 ⟨_, htrace, ?_⟩, ?_⟩
    · rw [Trace.produced, hsome]
      rfl
    · rw [sql_of_trace htrace, Trace.text, hsome, htexts]
      rfl
  · intro outer left
    have halike := Marker.bindsAlike_iff.trans
      (Marker.pieces_passes_iff .placeholder own outer)
    refine ⟨halike, fun hlasting => Marker.bindPlaceholders_congr (halike.2 hlasting), ?_⟩
    rw [← Marker.passes_in_place_iff .placeholder own outer]
    exact forall_congr' fun before => forall_congr' fun after => Marker.bindsAlike_iff

/-- An opening that is escaped and never closed: bound alike by itself, but not where a brace may
come after it. -/
theorem loop_binds_alike_iff_unclosed :
    let loop : Loop := { collection := "rows", item := some "row" }
    let surroundings : Surroundings :=
      { parameter := .object [("rows", .array [.null, .bool true])], evaluator := .naming }
    let own := "id = #{id} \\#\x7b".toList
    let left := Marker.placeholder.pass own
    (∃ c', ((Template.loop loop (.fixed " id = #{id} \\#\x7b ")).render surroundings).Gives
      (.initial none) true c') ∧
    Marker.BindsAlike left own ∧
    ¬ ∀ before after, Marker.BindsAlike (before ++ left ++ after) (before ++ own ++ after) := by
  intro loop surroundings own left
  have hown : trim " id = #{id} \\#\x7b ".toList = own := by
    decide +kernel
  have hignores : loop.Ignores " id = #{id} \\#\x7b ".toList := by
    have hbodies : Marker.bodies .placeholder (.ofList " id = #{id} \\#\x7b ".toList) = ["id"] := by
      decide +kernel
    intro body hbody x hx
    rw [hbodies, List.mem_singleton] at hbody
    obtain rfl : x = "row" := by
      simpa [loop, Loop.names] using hx
    subst hbody
    rintro ⟨rest, hrest, -⟩
    rw [show trimStart "id".toList = ['i', 'd'] by decide] at hrest
    cases (List.cons.inj hrest).1
  have hentries : loop.entries surroundings (.initial none) =
      .ok [(.ofNat 0, .null), (.ofNat 1, .bool true)] := by
    rfl
  have hlasting : Marker.Lasting .placeholder own := by
    rw [← Marker.pieces_pass_iff]
    decide +kernel
  obtain ⟨⟨c', hgives, -⟩, hleft⟩ :=
    loop_binds_alike_iff hignores hentries (List.cons_ne_nil _ _)
  rw [hown] at hleft
  obtain ⟨halone, -, hplace⟩ := hleft 0
  refine ⟨⟨c', hgives⟩, halone.2 hlasting, fun h => ?_⟩
  exact absurd (hplace.1 h) (by decide +kernel)

set_option maxRecDepth 10000 in
/-- An escaped placeholder is text by itself, and is bound where it comes out of a loop. -/
theorem escaped_marker_is_bound :
    ({ collection := "c", item := some "y" } : Loop).Ignores "\\#{x}".toList ∧
      bindPlaceholders .question none "\\#{x}" = .ok ("#{x}", []) ∧
      ((Source.live (.loop { collection := "c", item := some "y" } (.fixed "\\#{x}")) none).bind {}
        (.object [("c", .array [.ofInt 1, .ofInt 2]), ("x", .ofInt 7)]) none).map
          (fun b => (b.sql, b.values? .lenient)) = .ok ("??", some [.ofInt 7, .ofInt 7]) := by
  refine ⟨?_, ?_, ?_⟩
  · have hbodies : Marker.bodies .placeholder (.ofList "\\#{x}".toList) = [] := by
      decide +kernel
    intro body hbody
    rw [hbodies] at hbody
    cases hbody
  · cbv
  · cbv

end Template

end SqlTemplate
