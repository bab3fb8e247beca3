import SqlTemplate.Proofs.WrittenText
import SqlTemplate.Statement.Source

/-!
# Values do not reach the text

Of all that an evaluation reads, only its decisions count for the text of a template without
substitutions: whether a test held, and how many entries a loop had. Two evaluations that begin
with one counter and decide alike write the same text, whatever parameters, dialects and bindings
they have. The decisions of an evaluation are a list in the order in which they were made, and no
such list begins another one (`Template.agree_of_decisions`).

## Main definitions

* `Decision`, `Trace.decisions` : the decisions of a trace in order.
* `Template.decisions` : the decisions of rendering a template.
* `Template.SubstitutesNothing` : no text of the template is open to substitution.

## Main results

* `Template.agree_of_decisions` : evaluations that decide alike write alike.
* `Template.bound_text_of_decisions` : so they have the same SQL and the same mappings.
-/

namespace SqlTemplate

/-- What an evaluation decides: whether a test holds, or how many entries a loop has. -/
inductive Decision where
  | test (holds : Bool)
  | entries (count : Nat)
  deriving DecidableEq, Repr

namespace Trace

mutual

/-- The decisions of an evaluation, in the order in which they were made. -/
def decisions : Trace → List Decision
  | .nothing | .wrote _ | .bound .. => []
  | .before first rest => first.decisions ++ rest.decisions
  | .taken body => .test true :: body.decisions
  | .declined rest => .test false :: rest.decisions
  | .fallback body => body.decisions
  | .loop _ rounds => .entries rounds.length :: roundDecisions rounds
  | .trimmed _ body => body.decisions

/-- The decisions of the iterations of a loop. -/
def roundDecisions : List (Iteration × Trace) → List Decision
  | [] => []
  | (_, body) :: rest => body.decisions ++ roundDecisions rest

end

end Trace

namespace Template

/-- The decisions of rendering a template, or none where that fails. -/
def decisions (surroundings : Surroundings) (t : Template) (c : Context) : List Decision :=
  match (t.trace surroundings).run c with
  | (.ok trace, _) => trace.decisions
  | (.error _, _) => []

/-- No text of the template is open to substitution. -/
def SubstitutesNothing (t : Template) : Prop :=
  ∀ s, Template.text s ∉ t.nodes

variable {first second : Surroundings} {t part : Template}

theorem SubstitutesNothing.mono (h : t.SubstitutesNothing) (hw : part.Within t) :
    part.SubstitutesNothing :=
  fun s hs => h s (hw.mem hs rfl)

/-! ### Two evaluations of one template -/

/-- What two evaluations have in common where they decided alike: the text, the counter after them,
and the decisions that were made after them. -/
structure Agree {α : Type} (text₁ text₂ : α) (c₁' c₂' : Context) (more₁ more₂ : List Decision) :
    Prop where
  text : text₁ = text₂
  counter : c₁'.counter = c₂'.counter
  more : more₁ = more₂

/-- A trace agrees with each evaluation of the template that decides alike to begin with. -/
def Determines (second : Surroundings) (t : Template) (c₁ : Context) (τ₁ : Trace)
    (c₁' : Context) : Prop :=
  t.SubstitutesNothing → ∀ c₂ τ₂ c₂', (t.trace second).Gives c₂ τ₂ c₂' →
    c₁.counter = c₂.counter → ∀ more₁ more₂, τ₁.decisions ++ more₁ = τ₂.decisions ++ more₂ →
    Agree τ₁.text τ₂.text c₁' c₂' more₁ more₂

/-- The iterations of a loop agree with as many iterations of it that decide alike. -/
def DeterminesRounds (second : Surroundings) (loop : Loop) (body : Template) (c₁ : Context)
    (rounds₁ : List (Iteration × Trace)) (c₁' : Context) : Prop :=
  body.SubstitutesNothing → ∀ entries₂ c₂ results₂ c₂',
    (loop.traceAll (body.trace second) entries₂).Gives c₂ results₂ c₂' →
    rounds₁.length = entries₂.length → c₁.counter = c₂.counter → ∀ more₁ more₂,
    Trace.roundDecisions rounds₁ ++ more₁ =
      Trace.roundDecisions (results₂.map (·.1)) ++ more₂ →
    Agree (Trace.roundTexts loop rounds₁) (Trace.roundTexts loop (results₂.map (·.1)))
      c₁' c₂' more₁ more₂

theorem determines_next {rest : List Template} {c₁ m₁ c₁' : Context} {τ₁ others₁ : Trace}
    (hpart : part.Determines second c₁ τ₁ m₁)
    (hrest : (Template.sequence rest).Determines second m₁ others₁ c₁') :
    (Template.sequence (part :: rest)).Determines second c₁ (.before τ₁ others₁) c₁' := by
  intro hplain c₂ τ₂ c₂' h₂ hcounter more₁ more₂ hd
  obtain ⟨first₂, m₂, others₂, hfirst₂, hothers₂, rfl⟩ := gives_trace_sequence_cons.1 h₂
  rw [Trace.decisions, Trace.decisions, List.append_assoc, List.append_assoc] at hd
  have hp := hpart (hplain.mono (within_sequence (List.mem_cons_self ..))) c₂ first₂ m₂ hfirst₂
    hcounter _ _ hd
  have hr := hrest (hplain.mono (within_sequence_rest part rest)) m₂ others₂ c₂' hothers₂
    hp.counter _ _ hp.more
  refine ⟨?_, hr.counter, hr.more⟩
  rw [Trace.text, Trace.text, hp.text, hr.text]

theorem determines_loop {loop : Loop} {body : Template} {c₁ m₁ : Context}
    {rounds₁ : List (Iteration × Trace)} (s : String)
    (h : DeterminesRounds second loop body c₁ rounds₁ m₁) (hne : rounds₁ ≠ []) :
    (Template.loop loop body).Determines second c₁ (.loop loop rounds₁)
      ((loop.restore c₁ m₁).write s) := by
  intro hplain c₂ τ₂ c₂' h₂ hcounter more₁ more₂ hd
  obtain ⟨entries₂, -, ⟨rfl, rfl, rfl⟩ | ⟨-, results₂, m₂, hall, rfl, rfl⟩⟩ :=
    gives_trace_loop.1 h₂
  · -- the other loop has no entry, and decided so
    rw [Trace.decisions, Trace.decisions, List.cons_append, List.cons_append, List.cons.injEq,
      Decision.entries.injEq] at hd
    exact absurd (List.length_eq_zero_iff.1 hd.1) hne
  · rw [Trace.decisions, Trace.decisions, List.cons_append, List.cons_append, List.cons.injEq,
      Decision.entries.injEq, List.length_map, Loop.length_of_traceAll hall] at hd
    have hr := h (hplain.mono (within_loop loop body)) entries₂ c₂ results₂ m₂ hall hd.1 hcounter
      _ _ hd.2
    have hempty : rounds₁.isEmpty = (results₂.map (·.1)).isEmpty := by
      rw [Bool.eq_iff_iff, List.isEmpty_iff_length_eq_zero, List.isEmpty_iff_length_eq_zero, hd.1,
        List.length_map, Loop.length_of_traceAll hall]
    refine ⟨?_, ?_, hr.more⟩
    · rw [Trace.text, Trace.text, hempty, hr.text]
    · exact (Loop.restore_counter loop c₁ m₁).trans
        (hr.counter.trans (Loop.restore_counter loop c₂ m₂).symm)

theorem determines_round {loop : Loop} {body : Template} {entry : Value × Value}
    {c₁ m₁ c₁' : Context} {τ₁ : Trace} {rounds₁ : List (Iteration × Trace)}
    (hbody : body.Determines second (loop.enter entry c₁) τ₁ m₁)
    (hrest : DeterminesRounds second loop body { m₁ with sql := c₁.sql } rounds₁ c₁') :
    DeterminesRounds second loop body c₁ (({ number := c₁.counter, entry }, τ₁) :: rounds₁)
      c₁' := by
  intro hplain entries₂ c₂ results₂ c₂' hall hlength hcounter more₁ more₂ hd
  cases entries₂ with
  | nil => cases hlength
  | cons entry₂ rest₂ =>
    obtain ⟨τ₂, m₂, others₂, hbody₂, hrest₂, rfl⟩ := Loop.gives_traceAll_cons.1 hall
    rw [List.map_cons, Trace.roundDecisions, Trace.roundDecisions, List.append_assoc,
      List.append_assoc] at hd
    have hb := hbody hplain _ τ₂ m₂ hbody₂ (by simp [hcounter]) _ _ hd
    have hr := hrest hplain rest₂ _ others₂ c₂' hrest₂ (Nat.succ.inj hlength) hb.counter _ _
      hb.more
    refine ⟨?_, hr.counter, hr.more⟩
    rw [List.map_cons, Trace.roundTexts, Trace.roundTexts, hb.text, hr.text]
    exact congrArg (fun n => loop.iterationText n τ₂.text :: _) hcounter

/-- Two evaluations of a template without substitutions that begin with one counter and decide
alike write the same text, and end with one counter. -/
theorem agree_of_decisions {c₁ c₁' : Context} {τ₁ : Trace}
    (h : (t.trace first).Gives c₁ τ₁ c₁') : t.Determines second c₁ τ₁ c₁' := by
  apply trace_induction (P := fun t c τ c' => t.Determines second c τ c')
    (Q := fun loop body entries c results c' => results.length = entries.length ∧
      DeterminesRounds second loop body c (results.map (·.1)) c') (h := h)
  case fixed =>
    intro s c _ c₂ τ₂ c₂' h₂ hcounter more₁ more₂ hd
    obtain ⟨rfl, rfl⟩ := gives_trace_fixed.1 h₂
    exact ⟨rfl, hcounter, hd⟩
  case text =>
    intro s c written _ hplain
    exact absurd (self_mem_nodes _) (hplain s)
  case done =>
    intro c _ c₂ τ₂ c₂' h₂ hcounter more₁ more₂ hd
    obtain ⟨rfl, rfl⟩ := gives_trace_sequence_nil.1 h₂
    exact ⟨rfl, hcounter, hd⟩
  case next =>
    intro part rest c first m others c' _ _ hpart hrest
    exact determines_next hpart hrest
  case guardHeld =>
    intro test body c trace c' _ hbody hplain c₂ τ₂ c₂' h₂ hcounter more₁ more₂ hd
    rcases gives_trace_guarded.1 h₂ with ⟨-, trace₂, hbody₂, rfl⟩ | ⟨-, rfl, rfl⟩
    · exact hbody (hplain.mono (within_guarded test body)) c₂ trace₂ c₂' hbody₂ hcounter _ _
        (List.cons.inj hd).2
    · cases (List.cons.inj hd).1
  case guardFailed =>
    intro test body c _ hplain c₂ τ₂ c₂' h₂ hcounter more₁ more₂ hd
    rcases gives_trace_guarded.1 h₂ with ⟨-, trace₂, hbody₂, rfl⟩ | ⟨-, rfl, rfl⟩
    · cases (List.cons.inj hd).1
    · exact ⟨rfl, hcounter, (List.cons.inj hd).2⟩
  case branchHeld =>
    intro test body rest fallback c trace c' _ hbody hplain c₂ τ₂ c₂' h₂ hcounter more₁ more₂ hd
    rcases gives_trace_choice_cons.1 h₂ with ⟨-, trace₂, hbody₂, rfl⟩ | ⟨-, trace₂, hrest₂, rfl⟩
    · exact hbody (hplain.mono (within_branch test body rest fallback)) c₂ trace₂ c₂' hbody₂
        hcounter _ _ (List.cons.inj hd).2
    · cases (List.cons.inj hd).1
  case branchFailed =>
    intro test body rest fallback c trace c' _ hrest hplain c₂ τ₂ c₂' h₂ hcounter more₁ more₂ hd
    rcases gives_trace_choice_cons.1 h₂ with ⟨-, trace₂, hbody₂, rfl⟩ | ⟨-, trace₂, hrest₂, rfl⟩
    · cases (List.cons.inj hd).1
    · exact hrest (hplain.mono (within_choice_rest (test, body) rest fallback)) c₂ trace₂ c₂'
        hrest₂ hcounter _ _ (List.cons.inj hd).2
  case fallback =>
    intro body c trace c' hbody hplain c₂ τ₂ c₂' h₂ hcounter more₁ more₂ hd
    obtain ⟨trace₂, hbody₂, rfl⟩ := gives_trace_choice_nil.1 h₂
    exact hbody (hplain.mono (within_fallback body)) c₂ trace₂ c₂' hbody₂ hcounter _ _ hd
  case noBranch =>
    intro c _ c₂ τ₂ c₂' h₂ hcounter more₁ more₂ hd
    obtain ⟨rfl, rfl⟩ := gives_trace_choice_nil.1 h₂
    exact ⟨rfl, hcounter, hd⟩
  case noEntry =>
    intro loop body c _ _ c₂ τ₂ c₂' h₂ hcounter more₁ more₂ hd
    obtain ⟨entries₂, -, ⟨rfl, rfl, rfl⟩ | ⟨hne, results₂, m₂, hall, rfl, rfl⟩⟩ :=
      gives_trace_loop.1 h₂
    · exact ⟨rfl, hcounter, (List.cons.inj hd).2⟩
    · have hlength := Decision.entries.inj (List.cons.inj hd).1
      rw [List.length_map, Loop.length_of_traceAll hall] at hlength
      exact absurd (List.length_eq_zero_iff.1 hlength.symm) hne
  case loop =>
    rintro loop body c entries results m - hne ⟨hlength, hrounds⟩
    refine determines_loop _ hrounds fun hnil => hne ?_
    rw [List.map_eq_nil_iff] at hnil
    rw [← List.length_eq_zero_iff, ← hlength, hnil, List.length_nil]
  case roundsDone =>
    refine fun loop body c => ⟨rfl, ?_⟩
    intro _ entries₂ c₂ results₂ c₂' hall hlength hcounter more₁ more₂ hd
    obtain rfl := List.length_eq_zero_iff.1 hlength.symm
    obtain ⟨rfl, rfl⟩ := Loop.gives_traceAll_nil.1 hall
    exact ⟨rfl, hcounter, hd⟩
  case round =>
    rintro loop body entry rest c trace m others c' - - hbody ⟨hlength, hrest⟩
    exact ⟨by simp [hlength], determines_round hbody hrest⟩
  case trimmed =>
    intro affixes body c trace m hbody hplain c₂ τ₂ c₂' h₂ hcounter more₁ more₂ hd
    obtain ⟨trace₂, m₂, hbody₂, rfl, rfl⟩ := gives_trace_trimmed.1 h₂
    have hb := hbody (hplain.mono (within_trimmed affixes body)) _ trace₂ m₂ hbody₂ hcounter _ _ hd
    exact ⟨congrArg affixes.enclosed hb.text, hb.counter, hb.more⟩
  case bind =>
    intro name expression c value _ _ c₂ τ₂ c₂' h₂ hcounter more₁ more₂ hd
    obtain ⟨value₂, -, rfl, rfl⟩ := gives_trace_bind.1 h₂
    exact ⟨rfl, hcounter, hd⟩

theorem decisions_of_trace {c c' : Context} {τ : Trace} (h : (t.trace first).Gives c τ c') :
    t.decisions first c = τ.decisions := by
  rw [decisions, show (t.trace first).run c = (.ok τ, c') from h]

/-- **Values do not reach the text.** Where a template without substitutions is rendered twice,
with one text and one counter before, and every test has one result and every collection one number
of entries, then there is one text afterwards, and placeholders in it are bound alike. The
parameters, the dialects, the bindings and the language of expressions may all differ. -/
theorem bound_text_of_decisions (hplain : t.SubstitutesNothing) {c₁ c₁' c₂ c₂' : Context}
    {produced₁ produced₂ : Bool} (h₁ : (t.render first).Gives c₁ produced₁ c₁')
    (h₂ : (t.render second).Gives c₂ produced₂ c₂') (hsql : c₁.sql = c₂.sql)
    (hcounter : c₁.counter = c₂.counter) (hd : t.decisions first c₁ = t.decisions second c₂) :
    c₁'.sql = c₂'.sql ∧ ∀ (engine : Engine) (hint : Option String),
      (engine.finish c₁').1 = (engine.finish c₂').1 ∧
      bindPlaceholders engine.placeholder hint (engine.finish c₁').1 =
        bindPlaceholders engine.placeholder hint (engine.finish c₂').1 := by
  obtain ⟨τ₁, htrace₁, -⟩ := gives_render.1 h₁
  obtain ⟨τ₂, htrace₂, -⟩ := gives_render.1 h₂
  rw [decisions_of_trace htrace₁, decisions_of_trace htrace₂] at hd
  have hagree := agree_of_decisions htrace₁ hplain c₂ τ₂ c₂' htrace₂ hcounter [] []
    (congrArg (· ++ []) hd)
  have htext : c₁'.sql = c₂'.sql := by
    rw [← String.toList_inj, sql_of_trace htrace₁, sql_of_trace htrace₂, hsql, hagree.text]
  refine ⟨htext, fun engine hint => ?_⟩
  have hfinish : (engine.finish c₁').1 = (engine.finish c₂').1 := by
    rw [Engine.finish, Engine.finish, htext]
  exact ⟨hfinish, by rw [hfinish]⟩

/-- A test, a loop whose content is trimmed, and a binding. -/
def filtering : Template :=
  .sequence [.fixed "select * from t", .guarded "open" (.fixed "where open = #{open}"),
    .loop { collection := "rows", item := some "row", separator := some " or " }
      (.trimmed .whereClause (.fixed "and id = #{row.id}")),
    .bind "last" "name", .fixed "limit #{last}"]

/-- Two parameters that differ in every value, and of which one has an object where the other has a
list, are rendered to one text. -/
theorem bound_text_of_decisions_filtering :
    let first : Surroundings :=
      { parameter := .object [("open", .bool true), ("rows", .array [.null, .bool true]),
          ("name", .string "drop table t")], evaluator := .naming }
    let second : Surroundings :=
      { parameter := .object [("open", .string "yes"), ("name", .null),
          ("rows", .object [("or 1 = 1", .string "--"), ("b", .null)])], evaluator := .naming }
    let c₁ := ((filtering.render first).run (.initial (some "postgres"))).2
    let c₂ := ((filtering.render second).run (.initial none)).2
    filtering.decisions first (.initial (some "postgres")) =
      [.test true, .entries 2] ∧ c₁.sql = c₂.sql := by
  intro first second c₁ c₂
  have hplain : filtering.SubstitutesNothing := by
    intro s hs
    simp [filtering, nodes, nodesAll] at hs
  have hok₁ : ((filtering.render first).run (.initial (some "postgres"))).1.isOk = true := by
    decide +kernel
  have hok₂ : ((filtering.render second).run (.initial none)).1.isOk = true := by
    decide +kernel
  have hd₁ : filtering.decisions first (.initial (some "postgres")) =
      [.test true, .entries 2] := by
    decide +kernel
  have hd₂ : filtering.decisions second (.initial none) = [.test true, .entries 2] := by
    decide +kernel
  obtain ⟨produced₁, h₁⟩ := Evaluation.exists_gives hok₁
  obtain ⟨produced₂, h₂⟩ := Evaluation.exists_gives hok₂
  exact ⟨hd₁, (bound_text_of_decisions hplain h₁ h₂ rfl rfl (hd₁.trans hd₂.symm)).1⟩

end Template

end SqlTemplate
