import SqlTemplate.Proofs.Trace

/-!
# Idle templates

A template that produces nothing has done nothing. Which templates these are in a given state is
decided by their tests and their collections (`Template.Idle`): a guard is idle where its test
fails, a choice where all its tests fail and there is no body without a test, a loop where its
collection has no entries. A sequence is idle where all its parts are, and a trimmed body where the
body is, since affixes belong to what they enclose. Texts and bindings are never idle.

Where an evaluation succeeds without producing anything, its template is idle in the state before
it, and the state is the same afterwards, with its text, its bindings and its counter. Conversely
the evaluation of an idle template succeeds and produces nothing.

## Main definitions

* `Template.Idle` : a template has nothing to do in a state.

## Main results

* `Affixes.enclose?_empty` : there are no affixes around nothing.
* `Template.idle_of_trace` : what produces nothing is idle, and leaves the state as it is.
* `Template.Idle.gives_render` : an idle template produces nothing and leaves the state as it is.
* `Template.unproductive_iff_idle` : the two together, with the affixes of an idle body.
-/

namespace SqlTemplate

open Text

/-- Nothing is left of an empty body, whatever overrides there are, and so it gets no affixes. -/
theorem Affixes.enclose?_empty (affixes : Affixes) : affixes.enclose? "" = none := by
  have hleading : dropLeading affixes.leadOverrides [] = [] := by
    rw [dropLeading]
    split
    · rw [List.drop_nil]
      rfl
    · rfl
  have htrailing : dropTrailing affixes.tailOverrides [] = [] := by
    rw [dropTrailing]
    split
    · rw [List.take_nil]
      rfl
    · rfl
  have hcore : affixes.core "".toList = [] := by
    rw [core, String.toList_empty, show trim [] = [] from rfl, hleading, htrailing]
  rw [enclose?, hcore]
  rfl

namespace Template

/-- A template has nothing to do in a state: what texts and bindings it has stand behind tests that
fail there, or in loops without entries. -/
inductive Idle (surroundings : Surroundings) (c : Context) : Template → Prop where
  | sequence {parts : List Template} (hparts : ∀ p ∈ parts, Idle surroundings c p) :
    Idle surroundings c (.sequence parts)
  | guarded {test : String} {body : Template} (htest : c.boolean surroundings test = .ok false) :
    Idle surroundings c (.guarded test body)
  | choice {branches : List (String × Template)}
    (htests : ∀ b ∈ branches, c.boolean surroundings b.1 = .ok false) :
    Idle surroundings c (.choice branches none)
  | loop {attributes : Loop} {body : Template}
    (hentries : attributes.entries surroundings c = .ok []) :
    Idle surroundings c (.loop attributes body)
  | trimmed {affixes : Affixes} {body : Template} (hbody : Idle surroundings c body) :
    Idle surroundings c (.trimmed affixes body)

variable {surroundings : Surroundings} {t : Template} {c c' : Context}

/-- Whether a template is idle does not depend on the text written so far. -/
theorem Idle.with_sql (h : t.Idle surroundings c) (sql : String) :
    t.Idle surroundings { c with sql } := by
  induction h with
  | sequence _ ih => exact .sequence ih
  | guarded htest => exact .guarded htest
  | choice htests => exact .choice htests
  | loop hentries => exact .loop hentries
  | trimmed _ ih => exact .trimmed ih

/-! ### What produces nothing is idle -/

/-- Where a template was evaluated and the trace tells of no production, the template was idle, and
the state is the one from before. -/
theorem idle_of_trace {τ : Trace} (h : (t.trace surroundings).Gives c τ c')
    (hproduced : τ.produced = false) : c' = c ∧ t.Idle surroundings c := by
  revert hproduced
  -- of the iterations of a loop it counts only how many there are: with one of them the loop
  -- produces something
  apply trace_induction (P := fun t c τ c' => τ.produced = false → c' = c ∧ t.Idle surroundings c)
    (Q := fun _ _ entries _ results _ => results.length = entries.length) (h := h)
  case fixed => exact fun s c hproduced => Bool.noConfusion hproduced
  case text => exact fun s c written _ hproduced => Bool.noConfusion hproduced
  case done => exact fun c _ => ⟨rfl, .sequence (List.forall_mem_nil _)⟩
  case next =>
    intro part rest c first m others c' _ _ hfirst hrest hproduced
    obtain ⟨hf, ho⟩ := Bool.or_eq_false_iff.1 hproduced
    obtain ⟨rfl, hpart⟩ := hfirst hf
    obtain ⟨rfl, hparts⟩ := hrest ho
    cases hparts with
    | sequence hparts => exact ⟨rfl, .sequence (List.forall_mem_cons.2 ⟨hpart, hparts⟩)⟩
  case guardHeld => exact fun test body c trace c' _ _ hproduced => Bool.noConfusion hproduced
  case guardFailed => exact fun test body c htest _ => ⟨rfl, .guarded htest⟩
  case branchHeld =>
    exact fun test body rest fallback c trace c' _ _ hproduced => Bool.noConfusion hproduced
  case branchFailed =>
    intro test body rest fallback c trace c' htest hrest hproduced
    obtain ⟨rfl, hidle⟩ := hrest hproduced
    cases hidle with
    | choice htests => exact ⟨rfl, .choice (List.forall_mem_cons.2 ⟨htest, htests⟩)⟩
  case fallback => exact fun body c trace c' _ hproduced => Bool.noConfusion hproduced
  case noBranch => exact fun c _ => ⟨rfl, .choice (List.forall_mem_nil _)⟩
  case noEntry => exact fun loop body c hentries _ => ⟨rfl, .loop hentries⟩
  case loop =>
    intro loop body c entries results m _ hne hlength hproduced
    have hnone : results = [] := by
      simpa [Trace.produced] using hproduced
    rw [hnone] at hlength
    exact absurd (List.length_eq_zero_iff.1 hlength.symm) hne
  case roundsDone => exact fun loop body c => rfl
  case round =>
    intro loop body entry rest c trace m others c' _ _ _ hrest
    rw [List.length_cons, List.length_cons, hrest]
  case trimmed =>
    intro affixes body c trace m hbody hproduced
    obtain ⟨rfl, hidle⟩ := hbody hproduced
    rw [Affixes.enclose?_empty, Option.getD_none, Context.write_empty]
    exact ⟨rfl, .trimmed (hidle.with_sql c.sql)⟩
  case bind => exact fun name expression c value _ hproduced => Bool.noConfusion hproduced

/-! ### What is idle produces nothing -/

theorem gives_renderAll_of_idle {parts : List Template}
    (h : ∀ p ∈ parts, (p.render surroundings).Gives c false c) :
    (renderAll surroundings parts).Gives c false c := by
  induction parts with
  | nil => exact Evaluation.gives_pure.2 ⟨rfl, rfl⟩
  | cons part rest ih =>
    obtain ⟨hpart, hrest⟩ := List.forall_mem_cons.1 h
    rw [renderAll, Evaluation.gives_bind]
    refine ⟨false, c, hpart, Evaluation.gives_bind.2 ⟨false, c, ih hrest, ?_⟩⟩
    exact Evaluation.gives_pure.2 ⟨rfl, rfl⟩

theorem gives_renderBranch_of_idle {branches : List (String × Template)}
    (h : ∀ b ∈ branches, c.boolean surroundings b.1 = .ok false) :
    (renderBranch surroundings branches).Gives c false c := by
  induction branches with
  | nil => exact Evaluation.gives_pure.2 ⟨rfl, rfl⟩
  | cons branch rest ih =>
    obtain ⟨test, body⟩ := branch
    obtain ⟨htest, hrest⟩ := List.forall_mem_cons.1 h
    rw [renderBranch, Evaluation.gives_bind]
    exact ⟨false, c, Evaluation.gives_read.2 ⟨htest, rfl⟩, ih hrest⟩

/-- An idle template is evaluated with success, behind any text. -/
theorem Idle.gives_render (h : t.Idle surroundings c) (sql : String) :
    (t.render surroundings).Gives { c with sql } false { c with sql } := by
  induction h generalizing sql with
  | sequence _ ih =>
    rw [render]
    exact gives_renderAll_of_idle fun p hp => ih p hp sql
  | guarded htest =>
    rw [render, Evaluation.gives_bind]
    exact ⟨false, _, Evaluation.gives_read.2 ⟨htest, rfl⟩, Evaluation.gives_pure.2 ⟨rfl, rfl⟩⟩
  | choice htests =>
    rw [render, Evaluation.gives_bind]
    exact ⟨false, _, gives_renderBranch_of_idle htests, Evaluation.gives_pure.2 ⟨rfl, rfl⟩⟩
  | loop hentries =>
    rw [render, Loop.run, Evaluation.gives_bind]
    exact ⟨[], _, Evaluation.gives_read.2 ⟨hentries, rfl⟩, Evaluation.gives_pure.2 ⟨rfl, rfl⟩⟩
  | @trimmed affixes body _ ih =>
    rw [render, Evaluation.gives_bind]
    refine ⟨(false, ""), { c with sql }, ?_, ?_⟩
    · exact Evaluation.gives_capture.2 ⟨{ c with sql := "" }, ih "", rfl, rfl⟩
    · simp only [Affixes.enclose?_empty]
      exact Evaluation.gives_pure.2 ⟨rfl, rfl⟩

/-- **Idle templates.** The evaluation of a template succeeds without producing anything exactly if
the template is idle in the state before it, and then the state is the same afterwards: the text,
the bindings and the counter. In particular a trimmed body that produces nothing gets no affixes:
where the body comes to nothing in the text of its own, so does the whole, and the state of before
is kept. -/
theorem unproductive_iff_idle (surroundings : Surroundings) (t : Template) (c c' : Context) :
    ((t.render surroundings).Gives c false c' ↔ t.Idle surroundings c ∧ c' = c) ∧
    ∀ affixes, (t.render surroundings).Gives { c with sql := "" } false c' →
      ((Template.trimmed affixes t).render surroundings).Gives c false c := by
  have hforward {c : Context} (h : (t.render surroundings).Gives c false c') :
      c' = c ∧ t.Idle surroundings c := by
    obtain ⟨τ, htrace, hproduced⟩ := gives_render.1 h
    exact idle_of_trace htrace hproduced
  refine ⟨⟨fun h => (hforward h).symm, ?_⟩, fun affixes h => ?_⟩
  · rintro ⟨hidle, rfl⟩
    exact hidle.gives_render c'.sql
  · have hbody : t.Idle surroundings c := (hforward h).2.with_sql c.sql
    exact (Idle.trimmed hbody).gives_render c.sql

/-- Conditions of which none applies, with a loop over no rows and a choice without a branch. -/
def noConditions : Template :=
  .sequence [.guarded "open" (.fixed "and closed is null"),
    .trimmed { lead := some "and (", tail := some ")" }
      (.loop { collection := "rows", item := some "x", index := some "x" } (.fixed "x = #{x}")),
    .choice [("open", .bind "limit" "rows"), ("open", .text "${limit}")] none]

/-- A clause of these conditions is left out, and nothing tells that it was there. -/
theorem unproductive_iff_idle_noConditions :
    let surroundings : Surroundings :=
      { parameter := .object [("open", .bool false), ("rows", .array [])], evaluator := .naming }
    let c : Context := { bindings := [("x", .string "before")], sql := "select", counter := 4 }
    (noConditions.render surroundings).Gives { c with sql := "" } false { c with sql := "" } ∧
      noConditions.Idle surroundings { c with sql := "" } ∧
      ((Template.trimmed .whereClause noConditions).render surroundings).Gives c false c := by
  intro surroundings c
  have hfalse : ((noConditions.render surroundings).run { c with sql := "" }).1.toOption =
      some false := by
    decide +kernel
  have hok : ((noConditions.render surroundings).run { c with sql := "" }).1.isOk = true := by
    decide +kernel
  obtain ⟨produced, h⟩ := Evaluation.exists_gives hok
  obtain rfl : false = produced :=
    Option.some.inj (hfalse.symm.trans (congrArg (fun r => r.1.toOption) h))
  obtain ⟨hidle, hstate⟩ := (unproductive_iff_idle surroundings noConditions _ _).1.1 h
  rw [hstate] at h
  exact ⟨h, hidle, (unproductive_iff_idle surroundings noConditions c _).2 .whereClause h⟩

end Template

end SqlTemplate
