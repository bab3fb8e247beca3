import Mathlib
import SqlTemplate.Proofs.IterationNames
import SqlTemplate.Proofs.Placeholders
import SqlTemplate.Proofs.Scoping

/-!
# Loop variables

A placeholder that begins with a variable of a loop is bound to the value that the variable had in
the iteration that wrote it. The iteration points the placeholder at a name of its own; that name
is bound at the beginning of the iteration, no binding that comes later changes it, and no loop
around the iteration changes the placeholder. The values are given all at once, so that one property
of the text that is cut within a character leaves the variables without a value too.

## Main definitions

* `Trace.iterations` : the iterations of a trace at any depth.
* `Trace.Emits` : a marker that an iteration wrote, and what the loops make of its body.
* `Template.PlainNames` : the names of a template's loops and bindings are plain.

## Main results

* `Template.bound_of_trace` : the names of all iterations are bound at the end.
* `Trace.Emits.left_eq` : the body of a loop variable's marker as it leaves the loops.
* `Template.loop_variables_bind` : loop variables are bound to the values of their iterations.
-/

namespace SqlTemplate

open Text

/-! ### Iterations and their markers -/

namespace Trace

mutual

/-- The iterations of a trace at any depth, each with its loop. -/
def iterations : Trace → List (Loop × Iteration)
  | .nothing | .wrote _ | .bound .. => []
  | .before first rest => first.iterations ++ rest.iterations
  | .taken body | .fallback body => body.iterations
  | .declined rest => rest.iterations
  | .loop attributes rounds => roundIterations attributes rounds
  | .trimmed _ body => body.iterations

/-- The iterations of a loop, and those inside them. -/
def roundIterations (loop : Loop) : List (Iteration × Trace) → List (Loop × Iteration)
  | [] => []
  | (iteration, body) :: rest =>
    (loop, iteration) :: (body.iterations ++ roundIterations loop rest)

end

/-- An iteration of a loop wrote a marker with the body `body` into its text, and `left` is what
the body is when the iteration and those around it have pointed their variables at themselves. -/
inductive Emits (loop : Loop) (iteration : Iteration) (body : List Char) :
    Trace → (left : List Char) → Prop where
  | here {rounds : List (Iteration × Trace)} {trace : Trace} (hround : (iteration, trace) ∈ rounds)
      (hbody : .token body ∈ Marker.placeholder.pieces trace.text) :
      Emits loop iteration body (.loop loop rounds) (loop.renameChars iteration.number body)
  | around {outer : Loop} {rounds : List (Iteration × Trace)} {round : Iteration} {trace : Trace}
      {left : List Char} (hround : (round, trace) ∈ rounds)
      (h : Emits loop iteration body trace left) :
      Emits loop iteration body (.loop outer rounds) (outer.renameChars round.number left)
  | first {first rest : Trace} {left : List Char} (h : Emits loop iteration body first left) :
      Emits loop iteration body (.before first rest) left
  | rest {first rest : Trace} {left : List Char} (h : Emits loop iteration body rest left) :
      Emits loop iteration body (.before first rest) left
  | taken {trace : Trace} {left : List Char} (h : Emits loop iteration body trace left) :
      Emits loop iteration body (.taken trace) left
  | declined {trace : Trace} {left : List Char} (h : Emits loop iteration body trace left) :
      Emits loop iteration body (.declined trace) left
  | fallback {trace : Trace} {left : List Char} (h : Emits loop iteration body trace left) :
      Emits loop iteration body (.fallback trace) left
  | trimmed {affixes : Affixes} {trace : Trace} {left : List Char}
      (h : Emits loop iteration body trace left) :
      Emits loop iteration body (.trimmed affixes trace) left

variable {loop : Loop} {iteration : Iteration} {rounds : List (Iteration × Trace)} {τ : Trace}

theorem mem_roundIterations (h : (iteration, τ) ∈ rounds) :
    (loop, iteration) ∈ roundIterations loop rounds ∧
      ∀ e ∈ τ.iterations, e ∈ roundIterations loop rounds := by
  induction rounds with
  | nil => cases h
  | cons round rounds ih =>
    rw [roundIterations]
    rcases List.mem_cons.1 h with rfl | h
    · exact ⟨List.mem_cons_self .., fun e he =>
        List.mem_cons_of_mem _ (List.mem_append_left _ he)⟩
    · obtain ⟨hself, hinner⟩ := ih h
      exact ⟨List.mem_cons_of_mem _ (List.mem_append_right _ hself), fun e he =>
        List.mem_cons_of_mem _ (List.mem_append_right _ (hinner e he))⟩

theorem Emits.mem_iterations {body left : List Char} (h : Emits loop iteration body τ left) :
    (loop, iteration) ∈ τ.iterations := by
  induction h with
  | here hround _ => exact (mem_roundIterations hround).1
  | around hround _ ih => exact (mem_roundIterations hround).2 _ ih
  | first _ ih => exact List.mem_append_left _ ih
  | rest _ ih => exact List.mem_append_right _ ih
  | taken _ ih | declined _ ih | fallback _ ih | trimmed _ ih => exact ih

/-- The marker of a loop variable leaves its own loop pointed at the iteration, and every loop
around that one as it is. -/
theorem Emits.left_eq {x : String} {rest left : List Char}
    (h : Emits loop iteration (x.toList ++ rest) τ left)
    (hplain : ∀ e ∈ τ.iterations, e.1.Plain) (hx : x ∈ loop.names)
    (hrest : endsRoot rest = true) :
    left = (iterationName x iteration.number).toList ++ rest := by
  have hname : PlainName x := (hplain _ h.mem_iterations).names x hx
  induction h with
  | here hround _ =>
    exact Loop.renameChars_of_mem (hplain _ (mem_roundIterations hround).1) hx hrest _
  | around hround _ ih =>
    obtain ⟨hself, hinner⟩ := mem_roundIterations hround
    rw [ih fun e he => hplain e (hinner e he)]
    exact Loop.renameChars_iterationName (hplain _ hself) hname hrest _ _
  | first _ ih => exact ih fun e he => hplain e (List.mem_append_left _ he)
  | rest _ ih => exact ih fun e he => hplain e (List.mem_append_right _ he)
  | taken _ ih | declined _ ih | fallback _ ih | trimmed _ ih => exact ih hplain

end Trace

/-! ### The bindings of iterations -/

/-- The names of an iteration are bound to its entry, and its number is taken. -/
structure Loop.Bound (loop : Loop) (iteration : Iteration) (c : Context) : Prop where
  plain : loop.Plain
  taken : iteration.number < c.counter
  item : ∀ x, loop.item = some x →
    c.bindings.find? (iterationName x iteration.number) = some iteration.entry.2
  index : ∀ x, loop.index = some x →
    c.bindings.find? (iterationName x iteration.number) = some iteration.entry.1

/-- A state in which the names of the iteration are bound as in another, and its number is taken as
well, has them bound too. -/
theorem Loop.Bound.of_find?_eq {loop : Loop} {iteration : Iteration} {c c' : Context}
    (h : loop.Bound iteration c) (hcount : c.counter ≤ c'.counter)
    (heq : ∀ x, PlainName x → c'.bindings.find? (iterationName x iteration.number) =
      c.bindings.find? (iterationName x iteration.number)) : loop.Bound iteration c' where
  plain := h.plain
  taken := Nat.lt_of_lt_of_le h.taken hcount
  item x hx := (heq x (h.plain.item hx)).trans (h.item x hx)
  index x hx := (heq x (h.plain.index hx)).trans (h.index x hx)

/-- An iteration begins with its names bound. -/
theorem Loop.bound_enter {loop : Loop} (h : loop.Plain) (entry : Value × Value) (c : Context) :
    loop.Bound { number := c.counter, entry } (loop.enter entry c) where
  plain := h
  taken := by simp
  item x hx := by
    have hname := (h.item hx).ne_iterationName x c.counter
    simp [enter, bindEntry, hx, Context.bind, Entries.find?_insert, hname]
  index x hx := by
    have hname := (h.index hx).ne_iterationName x c.counter
    cases hy : loop.item with
    | none => simp [enter, bindEntry, hx, hy, Context.bind, Entries.find?_insert, hname]
    | some y =>
      have hitem := (h.item hy).ne_iterationName x c.counter
      have hother : iterationName y c.counter ≠ iterationName x c.counter := by
        intro heq
        exact h.apart y hy (by rw [hx, (iterationName_inj heq).1])
      simp [enter, bindEntry, hx, hy, Context.bind, Entries.find?_insert, hname, hitem, hother]

namespace Template

variable {surroundings : Surroundings} {c c' : Context} {τ : Trace} {t part : Template}

/-- The names that a template's loops and bindings have are plain. -/
structure PlainNames (t : Template) : Prop where
  loops : ∀ attributes body, Template.loop attributes body ∈ t.nodes → attributes.Plain
  binds : ∀ name expression, Template.bind name expression ∈ t.nodes → PlainName name

/-- The names that a node has of its own are plain. -/
def NamesPlain : Template → Prop
  | .loop attributes _ => attributes.Plain
  | .bind name _ => PlainName name
  | _ => True

instance : (t : Template) → Decidable t.NamesPlain
  | .loop attributes _ => inferInstanceAs (Decidable attributes.Plain)
  | .bind name _ => inferInstanceAs (Decidable (PlainName name))
  | .fixed _ | .text _ | .sequence _ | .guarded .. | .choice .. | .trimmed .. => isTrue trivial

theorem plainNames_iff : t.PlainNames ↔ ∀ node ∈ t.nodes, node.NamesPlain := by
  constructor
  · intro h node hnode
    cases node with
    | loop attributes body => exact h.loops _ _ hnode
    | bind name expression => exact h.binds _ _ hnode
    | fixed | text | sequence | guarded | choice | trimmed => trivial
  · exact fun h => ⟨fun _ _ hl => h _ hl, fun _ _ hb => h _ hb⟩

instance (t : Template) : Decidable t.PlainNames :=
  decidable_of_iff _ plainNames_iff.symm

theorem PlainNames.mono (h : t.PlainNames) (hw : part.Within t) : part.PlainNames where
  loops attributes body hl := h.loops attributes body (hw.mem hl rfl)
  binds name expression hb := h.binds name expression (hw.mem hb rfl)

/-- No evaluation touches a name of an iteration that took its number before. -/
theorem not_touches_iterationName (h : t.PlainNames) {x : String} {n low high : Nat}
    (hn : n < low) : ¬ t.Touches low high (iterationName x n) := by
  rintro (⟨expression, hb⟩ | ⟨y, m, -, hm, -, heq⟩)
  · exact (h.binds _ _ hb).ne_iterationName x n rfl
  · have hnm := (iterationName_inj heq).2
    omega

theorem Keeps.bound {loop : Loop} {iteration : Iteration} (hk : t.Keeps c c')
    (ht : t.PlainNames) (h : loop.Bound iteration c) : loop.Bound iteration c' :=
  h.of_find?_eq hk.1 fun _ _ => hk.2 _ (not_touches_iterationName ht h.taken)

theorem KeepsInside.bound {attributes loop : Loop} {body : Template} {iteration : Iteration}
    (hk : KeepsInside attributes body c c') (ht : (Template.loop attributes body).PlainNames)
    (h : loop.Bound iteration c) : loop.Bound iteration c' := by
  refine h.of_find?_eq hk.1 fun x _ => hk.2 _ (fun hmem => ?_)
    (not_touches_iterationName ht h.taken)
  exact ((ht.loops _ _ (self_mem_nodes _)).names _ hmem).ne_iterationName x _ rfl

/-- The names of all iterations are bound to their entries at the end of an evaluation. -/
theorem bound_of_trace (ht : t.PlainNames) (h : (t.trace surroundings).Gives c τ c') :
    ∀ e ∈ τ.iterations, e.1.Bound e.2 c' := by
  revert ht
  apply trace_induction (h := h)
    (P := fun t _ τ c' => t.PlainNames → ∀ e ∈ τ.iterations, e.1.Bound e.2 c')
    (Q := fun loop body _ _ results c' => (Template.loop loop body).PlainNames →
      ∀ e ∈ Trace.roundIterations loop (results.map (·.1)), e.1.Bound e.2 c')
  case fixed => exact fun s c _ e he => nomatch he
  case text => exact fun s c written _ _ e he => nomatch he
  case done => exact fun c _ e he => nomatch he
  case next =>
    intro part rest c first m others c' _ hrest ihfirst ihrest ht e he
    have hrestPlain := ht.mono (within_sequence_rest part rest)
    rcases List.mem_append.1 he with he | he
    · have hm := ihfirst (ht.mono (within_sequence (List.mem_cons_self ..))) e he
      exact (frame_of_trace hrest).bound hrestPlain hm
    · exact ihrest hrestPlain e he
  case guardHeld =>
    intro test body c trace c' _ ih ht
    exact ih (ht.mono (within_guarded test body))
  case guardFailed => exact fun test body c _ _ e he => nomatch he
  case branchHeld =>
    intro test body rest fallback c trace c' _ ih ht
    exact ih (ht.mono (within_branch test body rest fallback))
  case branchFailed =>
    intro test body rest fallback c trace c' _ ih ht
    exact ih (ht.mono (within_choice_rest (test, body) rest fallback))
  case fallback =>
    intro body c trace c' ih ht
    exact ih (ht.mono (within_fallback body))
  case noBranch => exact fun c _ e he => nomatch he
  case noEntry => exact fun loop body c _ _ e he => nomatch he
  case loop =>
    intro loop body c entries results m _ _ ih ht e he
    have hplain := ht.loops _ _ (self_mem_nodes _)
    refine (ih ht e he).of_find?_eq (Nat.le_of_eq (loop.restore_counter c m).symm) fun x _ => ?_
    change (loop.restore c m).bindings.find? _ = _
    rw [Loop.find?_restore, if_neg fun hmem =>
      (hplain.names _ hmem).ne_iterationName x e.2.number rfl]
  case roundsDone => exact fun loop body c _ e he => nomatch he
  case round =>
    intro loop body entry rest c trace m others c' hbody hrest ihbody ihrest ht e he
    have hbodyPlain := ht.mono (within_loop loop body)
    have hlater {l : Loop} {i : Iteration} (hm : l.Bound i m) : l.Bound i c' :=
      KeepsInside.bound (c := { m with sql := c.sql }) (frame_of_traceAll hrest) ht
        ⟨hm.plain, hm.taken, hm.item, hm.index⟩
    rw [List.map_cons, Trace.roundIterations] at he
    rcases List.mem_cons.1 he with rfl | he
    · have henter := Loop.bound_enter (ht.loops _ _ (self_mem_nodes _)) entry c
      exact hlater ((frame_of_trace hbody).bound hbodyPlain henter)
    · rcases List.mem_append.1 he with he | he
      · exact hlater (ihbody hbodyPlain e he)
      · exact ihrest ht e he
  case trimmed =>
    intro affixes body c trace m ih ht e he
    have hm := ih (ht.mono (within_trimmed affixes body)) e he
    exact ⟨hm.plain, hm.taken, hm.item, hm.index⟩
  case bind => exact fun name expression c value _ _ e he => nomatch he

end Template

/-! ### The values of loop variables -/

theorem BoundSql.bindsTo_of_find? {b : BoundSql} {style : PlaceholderStyle} {hint : Option String}
    {text x : String} {n : Nat} {rest : List Char} {v : Value}
    (hbind : bindPlaceholders style hint text = .ok (b.sql, b.mappings)) (hx : PlainName x)
    (hrest : endsVariable rest = true) (hv : b.additional.find? (iterationName x n) = some v) :
    b.BindsTo text ((iterationName x n).toList ++ rest) v (pathFrom rest) :=
  bindsTo_of_isRoot hbind (isRoot_iterationName hx n) hrest hv

namespace Template

/-- **Loop variables are bound to the values of their iterations.** Where a template whose names are
plain is bound, and there are values, each placeholder that an iteration wrote with a variable of
its loop in front, and that is in the text with the body which the loops have made of it, has the
value that its path leads to from the item of that iteration, or from the index, as the variable is
the one or the other. There are no values exactly if one of the properties of the text is cut within
a character. -/
theorem loop_variables_bind {t : Template} (ht : t.PlainNames) {engine : Engine}
    {hint dialect : Option String} {parameter : Value} {b : BoundSql}
    (h : (Source.live t hint).bind engine parameter dialect = .ok b) :
    ∃ τ c', (t.trace (engine.surroundings parameter)).Gives (.initial dialect) τ c' ∧
      c'.sql.toList = τ.text ∧
      bindPlaceholders engine.placeholder hint (engine.finish c').1 = .ok (b.sql, b.mappings) ∧
      (∀ access, b.values? access = none ↔ ∃ m ∈ b.mappings, b.Unreadable m.property) ∧
      ∀ (loop : Loop) (iteration : Iteration) (x : String) (rest left : List Char),
        τ.Emits loop iteration (x.toList ++ rest) left → endsVariable rest = true →
        (loop.item = some x →
          b.BindsTo (engine.finish c').1 left iteration.entry.2 (pathFrom rest)) ∧
        (loop.index = some x →
          b.BindsTo (engine.finish c').1 left iteration.entry.1 (pathFrom rest)) := by
  obtain ⟨produced, c', hrender, hadditional, hbind⟩ := Source.exists_gives_of_bind h
  obtain ⟨τ, htrace, -⟩ := gives_render.1 hrender
  have hbound := bound_of_trace ht htrace
  refine ⟨τ, c', htrace, ?_, hbind, fun _ => BoundSql.values?_eq_none_iff_unreadable hbind,
    fun loop iteration x rest left hemits hrest => ?_⟩
  · rw [sql_of_trace htrace]
    exact Context.nil_join _
  · have hiteration := hbound _ hemits.mem_iterations
    have hleft (hx : x ∈ loop.names) : left = (iterationName x iteration.number).toList ++ rest :=
      hemits.left_eq (fun e he => (hbound e he).plain) hx (endsRoot_of_endsVariable hrest)
    refine ⟨fun hx => ?_, fun hx => ?_⟩
    · rw [hleft (Loop.mem_names.2 (Or.inr hx))]
      refine BoundSql.bindsTo_of_find? hbind (hiteration.plain.item hx) hrest ?_
      rw [hadditional]
      exact hiteration.item x hx
    · rw [hleft (Loop.mem_names.2 (Or.inl hx))]
      refine BoundSql.bindsTo_of_find? hbind (hiteration.plain.index hx) hrest ?_
      rw [hadditional]
      exact hiteration.index x hx

/-- The attributes of a loop over lists. -/
def nested.outer : Loop where
  collection := "rows"
  item := some "x"
  index := some "i"

/-- The attributes of a loop over each of the lists, with the same variable. -/
def nested.inner : Loop where
  collection := "x"
  item := some "x"

/-- A loop over lists whose variable is taken by a loop over each of them. -/
def nested : Template :=
  .loop nested.outer (.loop nested.inner (.fixed "#{x.id} #{i}"))

theorem plainNames_nested : nested.PlainNames := by
  decide +kernel

namespace nested

/-- An object in a list. -/
def row : Value :=
  .object [("id", .bool true)]

/-- A parameter with one list. -/
def rows : Value :=
  .object [("rows", .array [.array [row]])]

/-- The iteration of the outer loop. -/
def first : Iteration where
  number := 0
  entry := (.ofNat 0, .array [row])

/-- The iteration of the inner loop. -/
def second : Iteration where
  number := 1
  entry := (.ofNat 0, row)

/-- What the two loops do. -/
def run : Trace :=
  .loop outer [(first, .loop inner [(second, .wrote "#{x.id} #{i}")])]

/-- What they leave behind. -/
def last : Context where
  bindings := [("__frch_i_0", .ofNat 0), ("__frch_x_0", .array [row]), ("__frch_x_1", row),
    (dialectName, .null)]
  sql := "#{__frch_x_1.id} #{__frch_i_0}"
  counter := 2

set_option maxRecDepth 20000 in
theorem gives_run : (nested.trace (Engine.surroundings {} rows)).Gives (.initial none) run last := by
  cbv

/-- What the template is bound to. -/
def bound : BoundSql where
  sql := "? ?"
  mappings := [{ property := "__frch_x_1.id" }, { property := "__frch_i_0" }]
  parameter := rows
  additional := last.bindings

theorem bind_run : (Source.live nested none).bind {} rows none = .ok bound := by
  have hrender : Engine.render {} nested rows none =
      .ok ("#{__frch_x_1.id} #{__frch_i_0}", last.bindings) :=
    Engine.render_eq_ok_iff.2 ⟨true, last, gives_render.2 ⟨run, gives_run, rfl⟩, by cbv⟩
  rw [Source.bind, hrender]
  cbv

/-- The inner loop wrote a marker with its variable, which shadows that of the outer loop. -/
theorem emits_item : run.Emits inner second "x.id".toList "__frch_x_1.id".toList := by
  have hbody : .token "x.id".toList ∈ Marker.placeholder.pieces "#{x.id} #{i}".toList := by
    decide +kernel
  have hleft : outer.renameChars first.number (inner.renameChars second.number "x.id".toList) =
      "__frch_x_1.id".toList := by
    decide +kernel
  have hemits : run.Emits inner second "x.id".toList
      (outer.renameChars first.number (inner.renameChars second.number "x.id".toList)) :=
    .around List.mem_cons_self (.here List.mem_cons_self hbody)
  rwa [hleft] at hemits

/-- The outer loop wrote a marker with its index. -/
theorem emits_index : run.Emits outer first "i".toList "__frch_i_0".toList := by
  have hbody : .token "i".toList ∈ Marker.placeholder.pieces
      (Trace.loop inner [(second, .wrote "#{x.id} #{i}")]).text := by
    decide +kernel
  have hleft : outer.renameChars first.number "i".toList = "__frch_i_0".toList := by
    decide +kernel
  have hemits : run.Emits outer first "i".toList
      (outer.renameChars first.number "i".toList) := .here List.mem_cons_self hbody
  rwa [hleft] at hemits

end nested

open nested in
/-- One row with one object in it: the two placeholders have the attribute of the object, and the
index of the row. -/
theorem loop_variables_bind_nested :
    nested.PlainNames ∧ ∃ vs, (Source.live nested none).bind {} rows none = .ok bound ∧
      bound.values? .lenient = some vs ∧ vs[0]? = some (.bool true) ∧
      vs[1]? = some (.ofNat 0) := by
  obtain ⟨τ, c', htrace, -, -, -, hvariables⟩ := loop_variables_bind plainNames_nested bind_run
  obtain ⟨rfl, rfl⟩ := gives_run.unique htrace
  have htext : Marker.placeholder.bodies (Engine.finish {} last).1 =
      ["__frch_x_1.id", "__frch_i_0"] := by
    decide +kernel
  have hvalues : bound.values? .lenient = some [.bool true, .ofNat 0] := by
    cbv
  have hitem := (hvariables inner second "x" ".id".toList _ emits_item rfl).1 rfl
  have hindex := (hvariables outer first "i" [] _ emits_index rfl).2 rfl
  have hfirst := hitem .lenient _ 0 hvalues (by rw [htext]; rfl)
  have hsecond := hindex .lenient _ 1 hvalues (by rw [htext]; rfl)
  refine ⟨plainNames_nested, _, bind_run, hvalues, hfirst.trans ?_, hsecond.trans ?_⟩ <;> cbv

/-- A name of two bytes, a placeholder with a point in front of this name, and a loop. -/
def severed : Template :=
  .sequence [.bind "é" "u", .fixed "#{.é.b}",
    .loop { collection := "c", item := some "x" } (.fixed "#{x}")]

theorem plainNames_severed : severed.PlainNames := by
  decide +kernel

namespace severed

/-- The row that the name is bound to. -/
def row : Value :=
  .object [("b", .ofInt 1)]

/-- A parameter with the row, and with one entry for the loop. -/
def parameter : Value :=
  .object [("c", .array [.ofInt 7]), ("u", row)]

/-- The attributes of the loop. -/
def attributes : Loop where
  collection := "c"
  item := some "x"

/-- The iteration for the entry. -/
def round : Iteration where
  number := 0
  entry := (.ofNat 0, .ofInt 7)

/-- What the evaluation does. -/
def run : Trace :=
  .before (.bound "é" row) (.before (.wrote "#{.é.b}")
    (.before (.loop attributes [(round, .wrote "#{x}")]) .nothing))

/-- What it leaves behind. -/
def last : Context where
  bindings := [("__frch_x_0", .ofInt 7), (dialectName, .null), ("é", row)]
  sql := "#{.é.b} #{__frch_x_0}"
  counter := 1

/-- What the template is bound to. -/
def bound : BoundSql where
  sql := "? ?"
  mappings := [{ property := ".é.b" }, { property := "__frch_x_0" }]
  parameter := parameter
  additional := last.bindings

set_option maxRecDepth 20000 in
theorem gives_run :
    (severed.trace (Engine.surroundings {} parameter)).Gives (.initial none) run last := by
  cbv

/-- The loop wrote a marker with its variable. -/
theorem emits_item : run.Emits attributes round "x".toList "__frch_x_0".toList := by
  have hbody : .token "x".toList ∈ Marker.placeholder.pieces "#{x}".toList := by
    decide +kernel
  have hleft : attributes.renameChars round.number "x".toList = "__frch_x_0".toList := by
    decide +kernel
  have hemits : run.Emits attributes round "x".toList
      (attributes.renameChars round.number "x".toList) :=
    .rest (.rest (.first (.here List.mem_cons_self hbody)))
  rwa [hleft] at hemits

theorem bind_run : (Source.live severed none).bind {} parameter none = .ok bound := by
  have hrender : Engine.render {} severed parameter none =
      .ok ("#{.é.b} #{__frch_x_0}", last.bindings) :=
    Engine.render_eq_ok_iff.2 ⟨true, last, gives_render.2 ⟨run, gives_run, rfl⟩, by cbv⟩
  rw [Source.bind, hrender]
  cbv

end severed

open severed in
/-- A loop wrote a placeholder with its variable, and the text is bound, but there is no value for
the placeholder: another property of the text is cut within a character. -/
theorem loop_variable_without_value :
    severed.PlainNames ∧
      (severed.trace (Engine.surroundings {} parameter)).Gives (.initial none) run last ∧
      run.Emits attributes round "x".toList "__frch_x_0".toList ∧
      Marker.placeholder.bodies (Engine.finish {} last).1 = [".é.b", "__frch_x_0"] ∧
      (Source.live severed none).bind {} parameter none = .ok bound ∧
      bound.values? .lenient = none := by
  refine ⟨plainNames_severed, gives_run, emits_item, by decide +kernel, bind_run, ?_⟩
  exact BoundSql.buried.values?_long List.mem_cons_self rfl (by decide +kernel) .lenient

end Template

end SqlTemplate
