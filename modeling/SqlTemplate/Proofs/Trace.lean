import SqlTemplate.Proofs.Joining
import SqlTemplate.Proofs.Nodes
import SqlTemplate.Proofs.Outcome

/-!
# Traces of an evaluation

A successful evaluation of a template leaves a trace: which tests held, what each text node wrote,
which entries each loop went through and under which numbers. The evaluation with a trace
(`Template.trace`) has the same effects as the evaluation itself, and the trace tells whether
something was produced (`Template.render_eq`); it is a record of the run, not another evaluation.

## Main definitions

* `Iteration`, `Trace` : an iteration of a loop, and the trace of a template.
* `Template.trace` : the evaluation of a template, with its trace.

## Main results

* `Template.render_eq` : rendering is tracing without the trace.
* `Template.trace_induction` : induction on successful evaluations.
-/

namespace SqlTemplate

open Text

/-- One iteration of a loop: the number it took and the entry it is for. -/
structure Iteration where
  number : Nat
  entry : Value × Value

/-- What an evaluation of a template did. -/
inductive Trace where
  /-- Nothing. -/
  | nothing
  /-- A text was written. -/
  | wrote (text : String)
  /-- A name was bound. -/
  | bound (name : String) (value : Value)
  /-- A part of a sequence was evaluated, then the parts after it. -/
  | before (first rest : Trace)
  /-- A test held, and its body was evaluated. -/
  | taken (body : Trace)
  /-- A test did not hold, and something else was evaluated in its place. -/
  | declined (rest : Trace)
  /-- The body without a test was evaluated. -/
  | fallback (body : Trace)
  /-- A loop went through its entries, each with a trace of the body. -/
  | loop (attributes : Loop) (rounds : List (Iteration × Trace))
  | trimmed (affixes : Affixes) (body : Trace)

namespace Trace

/-- Whether the evaluation produced anything. -/
def produced : Trace → Bool
  | .nothing => false
  | .wrote _ | .bound .. | .taken _ | .fallback _ => true
  | .before first rest => first.produced || rest.produced
  | .declined rest => rest.produced
  | .loop _ rounds => !rounds.isEmpty
  | .trimmed _ body => body.produced

end Trace

/-! ### Evaluation with a trace -/

namespace Loop

/-- The iterations for a list of entries, each with its trace and the text it comes to. -/
def traceAll (loop : Loop) (body : Evaluation Trace) :
    List (Value × Value) → Evaluation (List ((Iteration × Trace) × String))
  | [] => pure []
  | entry :: rest => do
    let n ← Evaluation.next
    modify (loop.bindEntry n entry)
    let (trace, text) ← Evaluation.capture body
    let others ← loop.traceAll body rest
    return (({ number := n, entry }, trace), trimmed (loop.rename n text)) :: others

/-- A whole loop with its trace. -/
def trace (loop : Loop) (surroundings : Surroundings) (body : Evaluation Trace) :
    Evaluation Trace := do
  let entries ← Evaluation.read (loop.entries surroundings)
  if entries.isEmpty then return .loop loop []
  let earlier ← get
  let results ← loop.traceAll body entries
  modify (loop.restore earlier)
  Evaluation.write (loop.assemble ((results.map (·.2)).filter (!·.isEmpty)))
  return .loop loop (results.map (·.1))

end Loop

namespace Template

mutual

/-- The evaluation of a template with its trace. -/
def trace (surroundings : Surroundings) : Template → Evaluation Trace
  | .fixed s => do
    Evaluation.write s
    return .wrote s
  | .text s => do
    let written ← Evaluation.read (·.substitute surroundings s)
    Evaluation.write written
    return .wrote written
  | .sequence parts => traceSequence surroundings parts
  | .guarded test body => do
    if ← Evaluation.read (·.boolean surroundings test) then
      let trace ← trace surroundings body
      return .taken trace
    return .declined .nothing
  | .choice branches fallback =>
    traceBranches surroundings branches (traceFallback surroundings fallback)
  | .loop attributes body => attributes.trace surroundings (trace surroundings body)
  | .trimmed affixes body => do
    let (trace, inner) ← Evaluation.capture (trace surroundings body)
    match affixes.enclose? inner with
    | some wrapped => Evaluation.write wrapped
    | none => pure ()
    return .trimmed affixes trace
  | .bind name expression => do
    let value ← Evaluation.read (·.value surroundings expression)
    modify (·.bind name value)
    return .bound name value

/-- The evaluation of templates one after another. -/
def traceSequence (surroundings : Surroundings) : List Template → Evaluation Trace
  | [] => return .nothing
  | part :: rest => do
    let first ← trace surroundings part
    let others ← traceSequence surroundings rest
    return .before first others

/-- The evaluation of the first branch whose test holds, and of something else where there is
none. -/
def traceBranches (surroundings : Surroundings) :
    List (String × Template) → Evaluation Trace → Evaluation Trace
  | [], otherwise => otherwise
  | (test, body) :: rest, otherwise => do
    if ← Evaluation.read (·.boolean surroundings test) then
      let trace ← trace surroundings body
      return .taken trace
    let trace ← traceBranches surroundings rest otherwise
    return .declined trace

/-- The evaluation of the body without a test. -/
def traceFallback (surroundings : Surroundings) : Option Template → Evaluation Trace
  | some body => do
    let trace ← trace surroundings body
    return .fallback trace
  | none => return .nothing

end

attribute [simp] trace traceSequence traceBranches traceFallback

end Template

/-! ### Rendering is tracing without the trace -/

namespace Evaluation

theorem capture_map {α β : Type} (f : α → β) (e : Evaluation α) :
    capture (f <$> e) = (fun r => (f r.1, r.2)) <$> capture e := by
  funext c
  change (capture (f <$> e)).run c = ((fun r => (f r.1, r.2)) <$> capture e).run c
  rw [map_eq_pure_bind, map_eq_pure_bind, run_bind, run_capture, run_capture, run_bind]
  rcases e.run { c with sql := "" } with ⟨failure | a, m⟩ <;> rfl

end Evaluation

namespace Loop

theorem iterateAll_eq (loop : Loop) (body : Evaluation Trace) (entries : List (Value × Value)) :
    loop.iterateAll (Trace.produced <$> body) entries =
      (fun results => (results.map (·.2)).filter (!·.isEmpty)) <$> loop.traceAll body entries := by
  induction entries with
  | nil => simp [iterateAll, traceAll]
  | cons entry rest ih =>
    simp only [iterateAll, iterate, traceAll, ih, Evaluation.capture_map, bind_assoc, map_bind,
      bind_map_left, pure_bind, map_pure]
    refine bind_congr fun n => bind_congr fun _ => bind_congr fun r => bind_congr fun results => ?_
    rw [List.map_cons, List.filter_cons]
    cases (trimmed (loop.rename n r.2)).isEmpty <;> rfl

theorem run_eq (loop : Loop) (surroundings : Surroundings) (body : Evaluation Trace) :
    loop.run surroundings (Trace.produced <$> body) =
      Trace.produced <$> loop.trace surroundings body := by
  simp only [run, trace, map_bind, iterateAll_eq, bind_map_left]
  refine bind_congr fun entries => ?_
  cases entries with
  | nil => simp [Trace.produced]
  | cons entry rest => simp [traceAll, Trace.produced]

end Loop

namespace Template

theorem produced_traceBranches (surroundings : Surroundings)
    (branches : List (String × Template)) (otherwise : Evaluation Trace)
    (hb : ∀ b ∈ branches,
      b.2.render surroundings = Trace.produced <$> b.2.trace surroundings) :
    Trace.produced <$> traceBranches surroundings branches otherwise = (do
      if ← renderBranch surroundings branches then return true
      Trace.produced <$> otherwise) := by
  induction branches with
  | nil => simp [renderBranch]
  | cons branch rest ih =>
    obtain ⟨test, body⟩ := branch
    have hbody := hb _ (List.mem_cons_self ..)
    have hrest := ih fun b hb' => hb b (List.mem_cons_of_mem _ hb')
    simp only [traceBranches, renderBranch, map_bind, bind_assoc]
    refine bind_congr fun holds => ?_
    cases holds
    · simpa [Trace.produced] using hrest
    · simp [Trace.produced, hbody]

theorem produced_traceFallback (surroundings : Surroundings) (fallback : Option Template)
    (hf : ∀ f, fallback = some f →
      f.render surroundings = Trace.produced <$> f.trace surroundings) :
    Trace.produced <$> traceFallback surroundings fallback = (match fallback with
      | some body => do
        let _ ← body.render surroundings
        return true
      | none => return false) := by
  cases fallback with
  | none => simp [Trace.produced]
  | some body => simp [Trace.produced, hf body rfl]

/-- Rendering a template is tracing it, with what the trace tells about the production. -/
theorem render_eq (surroundings : Surroundings) (t : Template) :
    t.render surroundings = Trace.produced <$> t.trace surroundings := by
  induction t using Template.induction with
  | fixed s => simp [render, Trace.produced]
  | text s => simp [render, Trace.produced]
  | sequence parts ih =>
    simp only [render, trace]
    induction parts with
    | nil => simp [renderAll, Trace.produced]
    | cons part rest ihrest =>
      have hpart := ih part (List.mem_cons_self ..)
      have hrest := ihrest fun p hp => ih p (List.mem_cons_of_mem _ hp)
      simp [renderAll, Trace.produced, hpart, hrest]
  | guarded test body ih =>
    simp only [render, trace, map_bind]
    refine bind_congr fun holds => ?_
    cases holds <;> simp [Trace.produced, ih]
  | choice branches fallback ihb ihf =>
    rw [trace, produced_traceBranches _ _ _ ihb, produced_traceFallback _ _ ihf]
    cases fallback <;> simp only [render]
  | loop attributes body ih =>
    simp only [render, trace, ih, Loop.run_eq]
  | trimmed affixes body ih =>
    simp only [render, trace, ih, Evaluation.capture_map, map_bind, bind_map_left]
    refine bind_congr fun r => ?_
    cases affixes.enclose? r.2 <;> simp [Trace.produced]
  | bind name expression => simp [render, Trace.produced]

end Template

/-! ### What a successful evaluation did -/

namespace Loop

/-- The state in which an iteration evaluates its body: numbered, with the names of the loop bound
and an empty text. -/
def enter (loop : Loop) (entry : Value × Value) (c : Context) : Context :=
  { loop.bindEntry c.counter entry { c with counter := c.counter + 1 } with sql := "" }

variable {loop : Loop} {surroundings : Surroundings} {body : Evaluation Trace} {c c' : Context}
  {τ : Trace}

@[simp] theorem bindEntry_sql (loop : Loop) (n : Nat) (entry : Value × Value) (c : Context) :
    (loop.bindEntry n entry c).sql = c.sql := by
  unfold bindEntry
  cases loop.item <;> cases loop.index <;> rfl

@[simp] theorem bindEntry_counter (loop : Loop) (n : Nat) (entry : Value × Value) (c : Context) :
    (loop.bindEntry n entry c).counter = c.counter := by
  unfold bindEntry
  cases loop.item <;> cases loop.index <;> rfl

@[simp] theorem enter_counter (loop : Loop) (entry : Value × Value) (c : Context) :
    (loop.enter entry c).counter = c.counter + 1 := by
  simp [enter]

@[simp] theorem enter_sql (loop : Loop) (entry : Value × Value) (c : Context) :
    (loop.enter entry c).sql = "" :=
  rfl

/-- To restore names is to change bindings, and nothing else. -/
theorem exists_restore_eq (loop : Loop) (earlier c : Context) :
    ∃ bindings, loop.restore earlier c = { c with bindings } := by
  have hfold (names : List String) (c : Context) :
      ∃ bindings, names.foldl (fun c name => c.restore name (earlier.bindings.find? name)) c =
        { c with bindings } := by
    induction names generalizing c with
    | nil => exact ⟨c.bindings, rfl⟩
    | cons name names ih => exact ih (c.restore name (earlier.bindings.find? name))
  exact hfold loop.names c

@[simp] theorem restore_sql (loop : Loop) (earlier c : Context) :
    (loop.restore earlier c).sql = c.sql := by
  obtain ⟨bindings, h⟩ := loop.exists_restore_eq earlier c
  rw [h]

@[simp] theorem restore_counter (loop : Loop) (earlier c : Context) :
    (loop.restore earlier c).counter = c.counter := by
  obtain ⟨bindings, h⟩ := loop.exists_restore_eq earlier c
  rw [h]

theorem gives_traceAll_nil {results : List ((Iteration × Trace) × String)} :
    (loop.traceAll body []).Gives c results c' ↔ results = [] ∧ c' = c := by
  rw [traceAll, Evaluation.gives_pure, eq_comm, @eq_comm _ c]

theorem gives_traceAll_cons {entry : Value × Value} {rest : List (Value × Value)}
    {results : List ((Iteration × Trace) × String)} :
    (loop.traceAll body (entry :: rest)).Gives c results c' ↔ ∃ trace m others,
      body.Gives (loop.enter entry c) trace m ∧
      (loop.traceAll body rest).Gives { m with sql := c.sql } others c' ∧
      results = (({ number := c.counter, entry }, trace),
        trimmed (loop.rename c.counter m.sql)) :: others := by
  simp only [traceAll, Evaluation.gives_bind, Evaluation.gives_next, Evaluation.gives_modify,
    Evaluation.gives_capture, Evaluation.gives_pure]
  constructor
  · rintro ⟨_, _, ⟨rfl, rfl⟩, _, _, rfl, ⟨trace, _⟩, _, ⟨m, hbody, rfl, rfl⟩, others, _, hrest,
      rfl, rfl⟩
    refine ⟨trace, m, others, hbody, ?_, rfl⟩
    simpa using hrest
  · rintro ⟨trace, m, others, hbody, hrest, rfl⟩
    refine ⟨_, _, ⟨rfl, rfl⟩, ⟨⟩, _, rfl, ⟨trace, m.sql⟩, _, ⟨m, hbody, rfl, rfl⟩, others, _, ?_,
      rfl, rfl⟩
    simpa using hrest

theorem length_of_traceAll {entries : List (Value × Value)}
    {results : List ((Iteration × Trace) × String)}
    (h : (loop.traceAll body entries).Gives c results c') : results.length = entries.length := by
  induction entries generalizing c results with
  | nil =>
    obtain ⟨rfl, -⟩ := gives_traceAll_nil.1 h
    rfl
  | cons entry rest ih =>
    obtain ⟨trace, m, others, -, hrest, rfl⟩ := gives_traceAll_cons.1 h
    rw [List.length_cons, List.length_cons, ih hrest]

theorem gives_trace :
    (loop.trace surroundings body).Gives c τ c' ↔ ∃ entries,
      loop.entries surroundings c = .ok entries ∧
      (entries = [] ∧ τ = .loop loop [] ∧ c' = c ∨
        entries ≠ [] ∧ ∃ results m, (loop.traceAll body entries).Gives c results m ∧
          τ = .loop loop (results.map (·.1)) ∧
          c' = (loop.restore c m).write
            (loop.assemble ((results.map (·.2)).filter (!·.isEmpty)))) := by
  simp only [trace, Evaluation.gives_bind, Evaluation.gives_read]
  constructor
  · rintro ⟨entries, _, ⟨hentries, rfl⟩, h⟩
    refine ⟨entries, hentries, ?_⟩
    cases entries with
    | nil =>
      simp only [List.isEmpty_nil, ↓reduceIte, Evaluation.gives_pure] at h
      exact Or.inl ⟨rfl, h.1.symm, h.2.symm⟩
    | cons entry rest =>
      simp only [List.isEmpty_cons, Bool.false_eq_true, ↓reduceIte, Evaluation.gives_bind,
        Evaluation.gives_get, Evaluation.gives_modify, Evaluation.gives_write,
        Evaluation.gives_pure] at h
      obtain ⟨_, _, ⟨rfl, rfl⟩, results, m, hall, _, _, rfl, _, _, rfl, rfl, rfl⟩ := h
      exact Or.inr ⟨List.cons_ne_nil _ _, results, m, hall, rfl, rfl⟩
  · rintro ⟨entries, hentries, ⟨rfl, rfl, rfl⟩ | ⟨hne, results, m, hall, rfl, rfl⟩⟩
    · exact ⟨[], c', ⟨hentries, rfl⟩, by simp⟩
    · refine ⟨entries, c, ⟨hentries, rfl⟩, ?_⟩
      rw [if_neg (by simpa using hne)]
      simp only [Evaluation.gives_bind, Evaluation.gives_get, Evaluation.gives_modify,
        Evaluation.gives_write, Evaluation.gives_pure]
      exact ⟨_, _, ⟨rfl, rfl⟩, results, m, hall, ⟨⟩, _, rfl, ⟨⟩, _, rfl, rfl, rfl⟩

end Loop

namespace Template

variable {surroundings : Surroundings} {c c' : Context} {τ : Trace}

theorem gives_trace_fixed {s : String} :
    ((Template.fixed s).trace surroundings).Gives c τ c' ↔ τ = .wrote s ∧ c' = c.write s := by
  simp only [trace, Evaluation.gives_bind, Evaluation.gives_write, Evaluation.gives_pure]
  constructor
  · rintro ⟨_, _, rfl, rfl, rfl⟩
    exact ⟨rfl, rfl⟩
  · rintro ⟨rfl, rfl⟩
    exact ⟨⟨⟩, _, rfl, rfl, rfl⟩

theorem gives_trace_text {s : String} :
    ((Template.text s).trace surroundings).Gives c τ c' ↔ ∃ written,
      c.substitute surroundings s = .ok written ∧ τ = .wrote written ∧ c' = c.write written := by
  simp only [trace, Evaluation.gives_bind, Evaluation.gives_read, Evaluation.gives_write,
    Evaluation.gives_pure]
  constructor
  · rintro ⟨written, _, ⟨hw, rfl⟩, _, _, rfl, rfl, rfl⟩
    exact ⟨written, hw, rfl, rfl⟩
  · rintro ⟨written, hw, rfl, rfl⟩
    exact ⟨written, _, ⟨hw, rfl⟩, ⟨⟩, _, rfl, rfl, rfl⟩

theorem gives_trace_sequence_nil :
    ((Template.sequence []).trace surroundings).Gives c τ c' ↔ τ = .nothing ∧ c' = c := by
  rw [trace, traceSequence, Evaluation.gives_pure, eq_comm, @eq_comm _ c]

theorem gives_trace_sequence_cons {part : Template} {rest : List Template} :
    ((Template.sequence (part :: rest)).trace surroundings).Gives c τ c' ↔ ∃ first m others,
      (part.trace surroundings).Gives c first m ∧
      ((Template.sequence rest).trace surroundings).Gives m others c' ∧
      τ = .before first others := by
  simp only [trace, traceSequence, Evaluation.gives_bind, Evaluation.gives_pure]
  constructor
  · rintro ⟨first, m, hfirst, others, _, hrest, rfl, rfl⟩
    exact ⟨first, m, others, hfirst, hrest, rfl⟩
  · rintro ⟨first, m, others, hfirst, hrest, rfl⟩
    exact ⟨first, m, hfirst, others, _, hrest, rfl, rfl⟩

theorem gives_trace_guarded {test : String} {body : Template} :
    ((Template.guarded test body).trace surroundings).Gives c τ c' ↔
      (c.boolean surroundings test = .ok true ∧
        ∃ trace, (body.trace surroundings).Gives c trace c' ∧ τ = .taken trace) ∨
      (c.boolean surroundings test = .ok false ∧ τ = .declined .nothing ∧ c' = c) := by
  simp only [trace, Evaluation.gives_bind, Evaluation.gives_read]
  constructor
  · rintro ⟨holds, _, ⟨hb, rfl⟩, h⟩
    cases holds with
    | true =>
      obtain ⟨trace, _, hbody, h⟩ := Evaluation.gives_bind.1 h
      obtain ⟨rfl, rfl⟩ := Evaluation.gives_pure.1 h
      exact Or.inl ⟨hb, trace, hbody, rfl⟩
    | false =>
      obtain ⟨rfl, rfl⟩ := Evaluation.gives_pure.1 h
      exact Or.inr ⟨hb, rfl, rfl⟩
  · rintro (⟨hb, trace, hbody, rfl⟩ | ⟨hb, rfl, rfl⟩)
    · exact ⟨true, c, ⟨hb, rfl⟩,
        Evaluation.gives_bind.2 ⟨trace, c', hbody, Evaluation.gives_pure.2 ⟨rfl, rfl⟩⟩⟩
    · exact ⟨false, c', ⟨hb, rfl⟩, Evaluation.gives_pure.2 ⟨rfl, rfl⟩⟩

theorem gives_trace_choice_nil {fallback : Option Template} :
    ((Template.choice [] fallback).trace surroundings).Gives c τ c' ↔ (match fallback with
      | some body => ∃ trace, (body.trace surroundings).Gives c trace c' ∧ τ = .fallback trace
      | none => τ = .nothing ∧ c' = c) := by
  rw [trace, traceBranches]
  cases fallback with
  | none => rw [traceFallback, Evaluation.gives_pure, eq_comm, @eq_comm _ c]
  | some body =>
    simp only [traceFallback, Evaluation.gives_bind, Evaluation.gives_pure]
    constructor
    · rintro ⟨trace, _, hbody, rfl, rfl⟩
      exact ⟨trace, hbody, rfl⟩
    · rintro ⟨trace, hbody, rfl⟩
      exact ⟨trace, c', hbody, rfl, rfl⟩

theorem gives_trace_choice_cons {test : String} {body : Template}
    {rest : List (String × Template)} {fallback : Option Template} :
    ((Template.choice ((test, body) :: rest) fallback).trace surroundings).Gives c τ c' ↔
      (c.boolean surroundings test = .ok true ∧
        ∃ trace, (body.trace surroundings).Gives c trace c' ∧ τ = .taken trace) ∨
      (c.boolean surroundings test = .ok false ∧
        ∃ trace, ((Template.choice rest fallback).trace surroundings).Gives c trace c' ∧
          τ = .declined trace) := by
  simp only [trace, traceBranches, Evaluation.gives_bind, Evaluation.gives_read]
  constructor
  · rintro ⟨holds, _, ⟨hb, rfl⟩, h⟩
    cases holds with
    | true =>
      obtain ⟨trace, _, hbody, h⟩ := Evaluation.gives_bind.1 h
      obtain ⟨rfl, rfl⟩ := Evaluation.gives_pure.1 h
      exact Or.inl ⟨hb, trace, hbody, rfl⟩
    | false =>
      obtain ⟨trace, _, hrest, h⟩ := Evaluation.gives_bind.1 h
      obtain ⟨rfl, rfl⟩ := Evaluation.gives_pure.1 h
      exact Or.inr ⟨hb, trace, hrest, rfl⟩
  · rintro (⟨hb, trace, hbody, rfl⟩ | ⟨hb, trace, hrest, rfl⟩)
    · exact ⟨true, c, ⟨hb, rfl⟩,
        Evaluation.gives_bind.2 ⟨trace, c', hbody, Evaluation.gives_pure.2 ⟨rfl, rfl⟩⟩⟩
    · exact ⟨false, c, ⟨hb, rfl⟩,
        Evaluation.gives_bind.2 ⟨trace, c', hrest, Evaluation.gives_pure.2 ⟨rfl, rfl⟩⟩⟩

theorem gives_trace_loop {loop : Loop} {body : Template} :
    ((Template.loop loop body).trace surroundings).Gives c τ c' ↔ ∃ entries,
      loop.entries surroundings c = .ok entries ∧
      (entries = [] ∧ τ = .loop loop [] ∧ c' = c ∨
        entries ≠ [] ∧ ∃ results m,
          (loop.traceAll (body.trace surroundings) entries).Gives c results m ∧
          τ = .loop loop (results.map (·.1)) ∧
          c' = (loop.restore c m).write
            (loop.assemble ((results.map (·.2)).filter (!·.isEmpty)))) := by
  rw [trace]
  exact Loop.gives_trace

theorem gives_trace_trimmed {affixes : Affixes} {body : Template} :
    ((Template.trimmed affixes body).trace surroundings).Gives c τ c' ↔ ∃ trace m,
      (body.trace surroundings).Gives { c with sql := "" } trace m ∧ τ = .trimmed affixes trace ∧
      c' = ({ m with sql := c.sql } : Context).write ((affixes.enclose? m.sql).getD "") := by
  simp only [trace, Evaluation.gives_bind, Evaluation.gives_capture]
  constructor
  · rintro ⟨⟨trace, inner⟩, _, ⟨m, hbody, rfl, rfl⟩, h⟩
    refine ⟨trace, m, hbody, ?_⟩
    cases he : affixes.enclose? m.sql with
    | none =>
      simp only [he, Evaluation.gives_pure] at h
      rw [Option.getD_none, Context.write_empty]
      exact ⟨h.1.symm, h.2.symm⟩
    | some wrapped =>
      simp only [he, Evaluation.gives_bind, Evaluation.gives_write, Evaluation.gives_pure] at h
      obtain ⟨_, _, rfl, rfl, rfl⟩ := h
      exact ⟨rfl, rfl⟩
  · rintro ⟨trace, m, hbody, rfl, rfl⟩
    refine ⟨(trace, m.sql), _, ⟨m, hbody, rfl, rfl⟩, ?_⟩
    cases affixes.enclose? m.sql with
    | none => simp [Context.write_empty]
    | some wrapped => simp [Evaluation.gives_map]

theorem gives_trace_bind {name expression : String} :
    ((Template.bind name expression).trace surroundings).Gives c τ c' ↔ ∃ value,
      c.value surroundings expression = .ok value ∧ τ = .bound name value ∧
      c' = c.bind name value := by
  simp only [trace, Evaluation.gives_bind, Evaluation.gives_read, Evaluation.gives_modify,
    Evaluation.gives_pure]
  constructor
  · rintro ⟨value, _, ⟨hv, rfl⟩, _, _, rfl, rfl, rfl⟩
    exact ⟨value, hv, rfl, rfl⟩
  · rintro ⟨value, hv, rfl, rfl⟩
    exact ⟨value, _, ⟨hv, rfl⟩, ⟨⟩, _, rfl, rfl, rfl⟩

theorem gives_render {t : Template} {produced : Bool} :
    (t.render surroundings).Gives c produced c' ↔
      ∃ trace, (t.trace surroundings).Gives c trace c' ∧ trace.produced = produced := by
  rw [render_eq, Evaluation.gives_map]

/-- Induction on successful evaluations: `P` relates a template, the state before it, its trace and
the state after it; `Q` does so for the iterations of a loop over a list of entries. A sequence and
a choice are taken apart from the front, so that what is left of them is again a template. Where
two evaluations follow one another, both are at hand. -/
theorem trace_induction {P : Template → Context → Trace → Context → Prop}
    {Q : Loop → Template → List (Value × Value) → Context →
      List ((Iteration × Trace) × String) → Context → Prop}
    (fixed : ∀ (s : String) (c : Context), P (.fixed s) c (.wrote s) (c.write s))
    (text : ∀ (s : String) (c : Context) (written : String),
      c.substitute surroundings s = .ok written →
      P (.text s) c (.wrote written) (c.write written))
    (done : ∀ c : Context, P (.sequence []) c .nothing c)
    (next : ∀ (part : Template) (rest : List Template) (c : Context) (first : Trace) (m : Context)
      (others : Trace) (c' : Context), (part.trace surroundings).Gives c first m →
      ((Template.sequence rest).trace surroundings).Gives m others c' → P part c first m →
      P (.sequence rest) m others c' → P (.sequence (part :: rest)) c (.before first others) c')
    (guardHeld : ∀ (test : String) (body : Template) (c : Context) (trace : Trace) (c' : Context),
      c.boolean surroundings test = .ok true → P body c trace c' →
      P (.guarded test body) c (.taken trace) c')
    (guardFailed : ∀ (test : String) (body : Template) (c : Context),
      c.boolean surroundings test = .ok false →
      P (.guarded test body) c (.declined .nothing) c)
    (branchHeld : ∀ (test : String) (body : Template) (rest : List (String × Template))
      (fallback : Option Template) (c : Context) (trace : Trace) (c' : Context),
      c.boolean surroundings test = .ok true → P body c trace c' →
      P (.choice ((test, body) :: rest) fallback) c (.taken trace) c')
    (branchFailed : ∀ (test : String) (body : Template) (rest : List (String × Template))
      (fallback : Option Template) (c : Context) (trace : Trace) (c' : Context),
      c.boolean surroundings test = .ok false → P (.choice rest fallback) c trace c' →
      P (.choice ((test, body) :: rest) fallback) c (.declined trace) c')
    (fallback : ∀ (body : Template) (c : Context) (trace : Trace) (c' : Context),
      P body c trace c' → P (.choice [] (some body)) c (.fallback trace) c')
    (noBranch : ∀ c : Context, P (.choice [] none) c .nothing c)
    (noEntry : ∀ (loop : Loop) (body : Template) (c : Context),
      loop.entries surroundings c = .ok [] → P (.loop loop body) c (.loop loop []) c)
    (loop : ∀ (loop : Loop) (body : Template) (c : Context) (entries : List (Value × Value))
      (results : List ((Iteration × Trace) × String)) (m : Context),
      loop.entries surroundings c = .ok entries → entries ≠ [] →
      Q loop body entries c results m → P (.loop loop body) c (.loop loop (results.map (·.1)))
        ((loop.restore c m).write (loop.assemble ((results.map (·.2)).filter (!·.isEmpty)))))
    (roundsDone : ∀ (loop : Loop) (body : Template) (c : Context), Q loop body [] c [] c)
    (round : ∀ (loop : Loop) (body : Template) (entry : Value × Value)
      (rest : List (Value × Value)) (c : Context) (trace : Trace) (m : Context)
      (others : List ((Iteration × Trace) × String)) (c' : Context),
      (body.trace surroundings).Gives (loop.enter entry c) trace m →
      (loop.traceAll (body.trace surroundings) rest).Gives { m with sql := c.sql } others c' →
      P body (loop.enter entry c) trace m → Q loop body rest { m with sql := c.sql } others c' →
      Q loop body (entry :: rest) c ((({ number := c.counter, entry }, trace),
        Text.trimmed (loop.rename c.counter m.sql)) :: others) c')
    (trimmed : ∀ (affixes : Affixes) (body : Template) (c : Context) (trace : Trace) (m : Context),
      P body { c with sql := "" } trace m → P (.trimmed affixes body) c (.trimmed affixes trace)
        (({ m with sql := c.sql } : Context).write ((affixes.enclose? m.sql).getD "")))
    (bind : ∀ (name expression : String) (c : Context) (value : Value),
      c.value surroundings expression = .ok value →
      P (.bind name expression) c (.bound name value) (c.bind name value))
    {t : Template} (h : (t.trace surroundings).Gives c τ c') : P t c τ c' := by
  induction t using Template.induction generalizing c τ c' with
  | fixed s =>
    obtain ⟨rfl, rfl⟩ := gives_trace_fixed.1 h
    exact fixed s c
  | text s =>
    obtain ⟨written, hw, rfl, rfl⟩ := gives_trace_text.1 h
    exact text s c written hw
  | sequence parts ih =>
    induction parts generalizing c τ with
    | nil =>
      obtain ⟨rfl, rfl⟩ := gives_trace_sequence_nil.1 h
      exact done c'
    | cons part rest ihrest =>
      obtain ⟨first, m, others, hfirst, hrest, rfl⟩ := gives_trace_sequence_cons.1 h
      exact next part rest c first m others c' hfirst hrest
        (ih part (List.mem_cons_self ..) hfirst)
        (ihrest (fun p hp => ih p (List.mem_cons_of_mem _ hp)) hrest)
  | guarded test body ih =>
    rcases gives_trace_guarded.1 h with ⟨hb, trace, hbody, rfl⟩ | ⟨hb, rfl, rfl⟩
    · exact guardHeld test body c trace c' hb (ih hbody)
    · exact guardFailed test body c' hb
  | choice branches otherwise ihb ihf =>
    induction branches generalizing τ with
    | nil =>
      have h := gives_trace_choice_nil.1 h
      cases otherwise with
      | none =>
        obtain ⟨rfl, rfl⟩ := h
        exact noBranch c'
      | some body =>
        obtain ⟨trace, hbody, rfl⟩ := h
        exact fallback body c trace c' (ihf body rfl hbody)
    | cons branch rest ihrest =>
      obtain ⟨test, body⟩ := branch
      rcases gives_trace_choice_cons.1 h with ⟨hb, trace, hbody, rfl⟩ | ⟨hb, trace, hrest, rfl⟩
      · exact branchHeld test body rest otherwise c trace c' hb
          (ihb _ (List.mem_cons_self ..) hbody)
      · exact branchFailed test body rest otherwise c trace c' hb
          (ihrest (fun b hb => ihb b (List.mem_cons_of_mem _ hb)) hrest)
  | loop attributes body ih =>
    have hrounds (entries : List (Value × Value)) {d d' : Context}
        {results : List ((Iteration × Trace) × String)}
        (hall : (attributes.traceAll (body.trace surroundings) entries).Gives d results d') :
        Q attributes body entries d results d' := by
      induction entries generalizing d results with
      | nil =>
        obtain ⟨rfl, rfl⟩ := Loop.gives_traceAll_nil.1 hall
        exact roundsDone attributes body d'
      | cons entry rest ihrest =>
        obtain ⟨trace, m, others, hbody, hrest, rfl⟩ := Loop.gives_traceAll_cons.1 hall
        exact round attributes body entry rest d trace m others d' hbody hrest (ih hbody)
          (ihrest hrest)
    obtain ⟨entries, hentries, ⟨rfl, rfl, rfl⟩ | ⟨hne, results, m, hall, rfl, rfl⟩⟩ :=
      gives_trace_loop.1 h
    · exact noEntry attributes body c' hentries
    · exact loop attributes body c entries results m hentries hne (hrounds entries hall)
  | trimmed affixes body ih =>
    obtain ⟨trace, m, hbody, rfl, rfl⟩ := gives_trace_trimmed.1 h
    exact trimmed affixes body c trace m (ih hbody)
  | bind name expression =>
    obtain ⟨value, hv, rfl, rfl⟩ := gives_trace_bind.1 h
    exact bind name expression c value hv

end Template

end SqlTemplate
