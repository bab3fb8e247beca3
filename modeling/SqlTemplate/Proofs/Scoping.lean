import SqlTemplate.Proofs.Trace

/-!
# The scope of bindings

Which bindings an evaluation can change. A binding of the template leaks into what comes after it,
and each iteration of a loop leaves behind the names that are of this iteration alone; every other
name has afterwards the binding that it had before, or none if it had none. The names of a loop are
among these others: whatever its body does to them, the loop puts them back.

## Main definitions

* `Template.Touches` : the names that an evaluation may change, for a range of the counter.

## Main results

* `Loop.find?_restore`, `Loop.find?_enter` : the bindings where a loop ends and where an iteration
  begins.
* `Template.frame_of_trace` : an evaluation keeps what it does not touch.
* `Template.render_keeps_bindings` : the same for rendering, with the names of loops put back.
-/

namespace SqlTemplate

theorem Entries.find?_set {α : Type} (m : Entries α) (key name : String) (value : Option α) :
    (m.set key value).find? name = if key = name then value else m.find? name := by
  cases value with
  | none => exact find?_erase m key name
  | some value => exact find?_insert m key name value

namespace Loop

variable {loop : Loop} {name : String}

theorem mem_names : name ∈ loop.names ↔ loop.index = some name ∨ loop.item = some name := by
  simp [names]

/-! ### Where a loop begins and ends -/

/-- At the end of a loop its names are bound as they were before it, and no other name changes. -/
theorem find?_restore (loop : Loop) (earlier c : Context) (name : String) :
    (loop.restore earlier c).bindings.find? name =
      if name ∈ loop.names then earlier.bindings.find? name else c.bindings.find? name := by
  have hfold (names : List String) (c : Context) :
      (names.foldl (fun c name => c.restore name (earlier.bindings.find? name)) c).bindings.find?
          name =
        if name ∈ names then earlier.bindings.find? name else c.bindings.find? name := by
    induction names generalizing c with
    | nil => rfl
    | cons key names ih =>
      rw [List.foldl_cons, ih, Context.restore, Entries.find?_set]
      by_cases hmem : name ∈ names
      · simp [hmem]
      · by_cases hkey : key = name
        · simp [hkey]
        · simp [hmem, hkey, Ne.symm hkey]
  exact hfold loop.names c

/-- An iteration begins with the bindings of before, but for the names of the loop and the names
that are of this iteration alone. -/
theorem find?_enter (entry : Value × Value) (c : Context) (hname : name ∉ loop.names)
    (hfresh : ∀ x ∈ loop.names, name ≠ iterationName x c.counter) :
    (loop.enter entry c).bindings.find? name = c.bindings.find? name := by
  have hitem (x : String) (hx : loop.item = some x) : x ≠ name ∧ iterationName x c.counter ≠ name :=
    ⟨fun h => hname (mem_names.2 (Or.inr (h ▸ hx))),
      fun h => hfresh x (mem_names.2 (Or.inr hx)) h.symm⟩
  have hindex (x : String) (hx : loop.index = some x) :
      x ≠ name ∧ iterationName x c.counter ≠ name :=
    ⟨fun h => hname (mem_names.2 (Or.inl (h ▸ hx))),
      fun h => hfresh x (mem_names.2 (Or.inl hx)) h.symm⟩
  simp only [enter, bindEntry]
  cases hi : loop.item <;> cases hj : loop.index <;>
    simp_all [Context.bind, Entries.find?_insert]

end Loop

namespace Template

variable {surroundings : Surroundings} {c c' : Context} {τ : Trace} {t part : Template}
  {low high : Nat} {name : String}

/-! ### The names that an evaluation may change -/

/-- The evaluation of a template may change a name that one of its bindings is for, and the names
of the iterations of its loops, where `low` is the counter before it and `high` the counter after
it. -/
def Touches (t : Template) (low high : Nat) (name : String) : Prop :=
  t.BindsName name ∨ ∃ x n, t.LoopsOver x ∧ low ≤ n ∧ n < high ∧ name = iterationName x n

/-- A part of a template touches no more than the template, nor in less of the counter's range. -/
theorem Touches.mono {low' high' : Nat} (h : part.Touches low high name) (hw : part.Within t)
    (hlow : low' ≤ low) (hhigh : high ≤ high') : t.Touches low' high' name := by
  rcases h with hb | ⟨x, n, hl, hn, hn', rfl⟩
  · exact Or.inl (hb.mono hw)
  · exact Or.inr ⟨x, n, hl.mono hw, by omega, by omega, rfl⟩

/-- What an evaluation keeps: the counter does not go back, and a name that is not touched has the
binding of before. -/
def Keeps (t : Template) (c c' : Context) : Prop :=
  c.counter ≤ c'.counter ∧ ∀ name, ¬ t.Touches c.counter c'.counter name →
    c'.bindings.find? name = c.bindings.find? name

theorem Keeps.rfl : t.Keeps c c :=
  ⟨Nat.le_refl _, fun _ _ => .refl _⟩

theorem Keeps.mono (h : part.Keeps c c') (hw : part.Within t) : t.Keeps c c' :=
  ⟨h.1, fun name hname => h.2 name fun ht => hname (ht.mono hw (Nat.le_refl _) (Nat.le_refl _))⟩

/-- What the parts of a template keep one after the other, the template keeps. -/
theorem Keeps.trans {first rest : Template} {m : Context} (h : first.Keeps c m)
    (h' : rest.Keeps m c') (hfirst : first.Within t) (hrest : rest.Within t) : t.Keeps c c' := by
  refine ⟨Nat.le_trans h.1 h'.1, fun name hname => ?_⟩
  rw [h'.2 name fun ht => hname (ht.mono hrest h.1 (Nat.le_refl _)),
    h.2 name fun ht => hname (ht.mono hfirst (Nat.le_refl _) h'.1)]

/-- What the iterations of a loop keep: as the loop does, but for the names of the loop, which are
put back only at its end. -/
def KeepsInside (attributes : Loop) (body : Template) (c c' : Context) : Prop :=
  c.counter ≤ c'.counter ∧ ∀ name, name ∉ attributes.names →
    ¬ (Template.loop attributes body).Touches c.counter c'.counter name →
    c'.bindings.find? name = c.bindings.find? name

theorem keepsInside_round {attributes : Loop} {body : Template} {entry : Value × Value}
    {m : Context} (hbody : body.Keeps (attributes.enter entry c) m)
    (hrest : KeepsInside attributes body { m with sql := c.sql } c') :
    KeepsInside attributes body c c' := by
  have hcount : c.counter + 1 ≤ m.counter := by
    simpa using hbody.1
  have hcount' : m.counter ≤ c'.counter := hrest.1
  refine ⟨by omega, fun name hname htouch => ?_⟩
  have hlater : c'.bindings.find? name = m.bindings.find? name :=
    hrest.2 name hname fun ht => htouch (ht.mono (.refl _)
      (show c.counter ≤ m.counter by omega) (Nat.le_refl _))
  have hinner : m.bindings.find? name = (attributes.enter entry c).bindings.find? name :=
    hbody.2 name fun ht => htouch (ht.mono (within_loop attributes body) (by simp) hcount')
  have henter : (attributes.enter entry c).bindings.find? name = c.bindings.find? name := by
    refine Loop.find?_enter entry c hname fun x hx hn => htouch (Or.inr ⟨x, c.counter, ?_⟩)
    exact ⟨⟨attributes, body, self_mem_nodes _, hx⟩, Nat.le_refl _, by omega, hn⟩
  rw [hlater, hinner, henter]

/-- A loop keeps what its iterations keep, and its own names. -/
theorem keeps_loop {attributes : Loop} {body : Template} {m : Context} (s : String)
    (h : KeepsInside attributes body c m) :
    (Template.loop attributes body).Keeps c ((attributes.restore c m).write s) := by
  have hcount : ((attributes.restore c m).write s).counter = m.counter :=
    Loop.restore_counter attributes c m
  refine ⟨hcount ▸ h.1, fun name hname => ?_⟩
  rw [hcount] at hname
  change (attributes.restore c m).bindings.find? name = _
  rw [Loop.find?_restore]
  split
  · rfl
  · exact h.2 name ‹_› hname

theorem keeps_bind (name expression : String) (c : Context) (value : Value) :
    (Template.bind name expression).Keeps c (c.bind name value) := by
  refine ⟨Nat.le_refl _, fun other hother => ?_⟩
  have hne : name ≠ other := by
    rintro rfl
    exact hother (Or.inl ⟨expression, self_mem_nodes _⟩)
  rw [Context.bind, Entries.find?_insert, if_neg hne]

/-- An evaluation keeps the bindings that it does not touch, and the counter does not go back. -/
theorem frame_of_trace (h : (t.trace surroundings).Gives c τ c') : t.Keeps c c' := by
  apply trace_induction (P := fun t c _ c' => t.Keeps c c')
    (Q := fun loop body _ c _ c' => KeepsInside loop body c c') (h := h)
  case fixed => exact fun s c => Keeps.rfl (c := c)
  case text => exact fun s c _ _ => Keeps.rfl (c := c)
  case done => exact fun c => Keeps.rfl
  case next =>
    intro part rest c first m others c' _ _ hfirst hrest
    exact hfirst.trans hrest (within_sequence (List.mem_cons_self ..))
      (within_sequence_rest part rest)
  case guardHeld =>
    intro test body c trace c' _ hbody
    exact hbody.mono (within_guarded test body)
  case guardFailed => exact fun test body c _ => Keeps.rfl
  case branchHeld =>
    intro test body rest fallback c trace c' _ hbody
    exact hbody.mono (within_branch test body rest fallback)
  case branchFailed =>
    intro test body rest fallback c trace c' _ hrest
    exact hrest.mono (within_choice_rest (test, body) rest fallback)
  case fallback =>
    intro body c trace c' hbody
    exact hbody.mono (within_fallback body)
  case noBranch => exact fun c => Keeps.rfl
  case noEntry => exact fun loop body c _ => Keeps.rfl
  case loop =>
    intro loop body c entries results m _ _ hinside
    exact keeps_loop _ hinside
  case roundsDone => exact fun loop body c => ⟨Nat.le_refl _, fun _ _ _ => rfl⟩
  case round =>
    intro loop body entry rest c trace m others c' _ _ hbody hrest
    exact keepsInside_round hbody hrest
  case trimmed =>
    intro affixes body c trace m hbody
    exact Keeps.mono (c := c) hbody (within_trimmed affixes body)
  case bind => exact fun name expression c value _ => keeps_bind name expression c value

/-- The iterations of a loop keep the bindings that they do not touch, but for its names. -/
theorem frame_of_traceAll {attributes : Loop} {body : Template} {entries : List (Value × Value)}
    {results : List ((Iteration × Trace) × String)}
    (h : (attributes.traceAll (body.trace surroundings) entries).Gives c results c') :
    KeepsInside attributes body c c' := by
  induction entries generalizing c results with
  | nil =>
    obtain ⟨-, rfl⟩ := Loop.gives_traceAll_nil.1 h
    exact ⟨Nat.le_refl _, fun _ _ _ => rfl⟩
  | cons entry rest ih =>
    obtain ⟨trace, m, others, hbody, hrest, -⟩ := Loop.gives_traceAll_cons.1 h
    exact keepsInside_round (frame_of_trace hbody) (ih hrest)

/-- After a loop its names are bound as before it, whatever its body did to them. -/
theorem find?_of_trace_loop {attributes : Loop} {body : Template}
    (h : ((Template.loop attributes body).trace surroundings).Gives c τ c')
    (hname : name ∈ attributes.names) : c'.bindings.find? name = c.bindings.find? name := by
  obtain ⟨entries, -, ⟨-, -, rfl⟩ | ⟨-, results, m, -, -, rfl⟩⟩ := gives_trace_loop.1 h
  · rfl
  · change (attributes.restore c m).bindings.find? name = _
    rw [Loop.find?_restore, if_pos hname]

/-- **The scope of bindings.** Where a template is rendered, the counter does not go back, and a
name has the binding of before, or none as before, unless a binding of the template is for it or it
is the name of an iteration that took its number meanwhile. A loop in particular leaves its own
names as they were, also where its body binds them, where loops inside it reuse them, or where its
item and its index have one name. -/
theorem render_keeps_bindings (surroundings : Surroundings) (t : Template) {c c' : Context}
    {produced : Bool} (h : (t.render surroundings).Gives c produced c') :
    c.counter ≤ c'.counter ∧
    (∀ name, ¬ t.BindsName name →
      (∀ x n, t.LoopsOver x → c.counter ≤ n → n < c'.counter → name ≠ iterationName x n) →
      c'.bindings.find? name = c.bindings.find? name) ∧
    ∀ attributes body, t = .loop attributes body → ∀ name ∈ attributes.names,
      c'.bindings.find? name = c.bindings.find? name := by
  obtain ⟨trace, htrace, -⟩ := gives_render.1 h
  obtain ⟨hcount, hkeep⟩ := frame_of_trace htrace
  refine ⟨hcount, fun name hbind hloop => hkeep name ?_, ?_⟩
  · rintro (hb | ⟨x, n, hl, hn, hn', rfl⟩)
    · exact hbind hb
    · exact hloop x n hl hn hn' rfl
  · rintro attributes body rfl name hname
    exact find?_of_trace_loop htrace hname

/-- A loop whose body binds the item of the loop, and then goes on to a loop over the same rows
whose item and index have the name of that item. -/
def shadowing : Template :=
  .loop { collection := "rows", item := some "x", index := some "i" } (.sequence
    [.bind "x" "i", .loop { collection := "rows", item := some "x", index := some "x" }
      (.fixed "#{x}")])

/-- A name that is bound before such loops has its binding afterwards, and one that is not has
none. -/
theorem render_keeps_bindings_shadowing :
    let surroundings : Surroundings :=
      { parameter := .object [("rows", .array [.null, .bool true])], evaluator := .naming }
    let c : Context := { bindings := [("x", .string "before")] }
    let c' := ((shadowing.render surroundings).run c).2
    c'.bindings.find? "x" = some (.string "before") ∧ c'.bindings.find? "i" = none := by
  intro surroundings c c'
  have hok : ((shadowing.render surroundings).run c).1.isOk = true := by
    decide +kernel
  obtain ⟨produced, h⟩ := Evaluation.exists_gives hok
  obtain ⟨-, -, hnames⟩ := render_keeps_bindings surroundings shadowing h
  exact ⟨hnames _ _ rfl "x" (by decide), hnames _ _ rfl "i" (by decide)⟩

end Template

end SqlTemplate
