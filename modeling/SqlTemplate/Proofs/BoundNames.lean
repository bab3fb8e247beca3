import Mathlib
import SqlTemplate.Proofs.LoopVariables

/-!
# Bound names

A binding inside a loop is made in each iteration, always under the same name. No iteration has a
name of its own for it, as it has for the variables of its loop, so a placeholder that begins with
the name is left as it is and is resolved when the evaluation is over. It has the value that the
name was bound to last, which need not be the value that the name held where the placeholder was
written. As all values of a text, it is missing where one property is cut within a character.

## Main definitions

* `Trace.lastBound` : the value that an evaluation bound a name to last.
* `Trace.Writes` : a marker that was written, what a name held then, and what the loops make of the
  body of the marker.

## Main results

* `Template.find?_of_trace` : the binding of a name after an evaluation.
* `Trace.Writes.left_eq_or` : the loops leave a marker as it is, or one of them has taken it.
* `Template.bound_names_bind` : placeholders that begin with a name, against what the name held.
-/

namespace SqlTemplate

open Text

/-! ### The last binding -/

namespace Trace

mutual

/-- The value that an evaluation bound a name to last. What a loop binds to its own names it takes
back. -/
def lastBound (y : String) : Trace → Option Value
  | .nothing | .wrote _ => none
  | .bound name value => if name = y then some value else none
  | .before first rest => (rest.lastBound y).or (first.lastBound y)
  | .taken body | .fallback body => body.lastBound y
  | .declined rest => rest.lastBound y
  | .loop attributes rounds => if y ∈ attributes.names then none else lastBoundIn y rounds
  | .trimmed _ body => body.lastBound y

/-- The value that iterations bound a name to last. -/
def lastBoundIn (y : String) : List (Iteration × Trace) → Option Value
  | [] => none
  | (_, body) :: rest => (lastBoundIn y rest).or (body.lastBound y)

end

theorem lastBoundIn_append (y : String) (earlier later : List (Iteration × Trace)) :
    lastBoundIn y (earlier ++ later) = (lastBoundIn y later).or (lastBoundIn y earlier) := by
  induction earlier with
  | nil => rw [List.nil_append, lastBoundIn, Option.or_none]
  | cons round earlier ih =>
    rw [List.cons_append, lastBoundIn, lastBoundIn, ih, Option.or_assoc]

end Trace

/-! ### Where an iteration begins -/

/-- The value that an iteration binds a name to at its beginning, where the name is one of its
loop. -/
def Loop.entryValue? (loop : Loop) (entry : Value × Value) (y : String) : Option Value :=
  if loop.item = some y then some entry.2
  else if loop.index = some y then some entry.1
  else none

theorem Loop.entryValue?_of_not_mem {loop : Loop} {y : String} (hy : y ∉ loop.names)
    (entry : Value × Value) : loop.entryValue? entry y = none := by
  rw [Loop.mem_names, not_or] at hy
  rw [entryValue?, if_neg hy.2, if_neg hy.1]

/-- An iteration begins with a name bound to the entry, or as it was. -/
theorem Loop.find?_enter_eq_or (loop : Loop) {y : String} (hy : ∀ x n, y ≠ iterationName x n)
    (entry : Value × Value) (c : Context) :
    (loop.enter entry c).bindings.find? y =
      (loop.entryValue? entry y).or (c.bindings.find? y) := by
  have hfresh (x : String) : iterationName x c.counter ≠ y := (hy x c.counter).symm
  rw [entryValue?, enter]
  simp only [bindEntry]
  cases loop.item <;> cases loop.index <;>
    simp only [Context.bind, Entries.find?_insert, hfresh, Option.some.injEq, if_false,
      reduceCtorEq, Option.none_or] <;> grind

/-! ### The binding after an evaluation -/

namespace Template

variable {surroundings : Surroundings} {c c' : Context} {τ : Trace} {t : Template} {y : String}

/-- After an evaluation a name is bound as the evaluation bound it last, and as before where the
evaluation did not bind it. -/
theorem find?_of_trace (hy : ∀ x n, y ≠ iterationName x n)
    (h : (t.trace surroundings).Gives c τ c') :
    c'.bindings.find? y = (τ.lastBound y).or (c.bindings.find? y) := by
  apply trace_induction (h := h)
    (P := fun _ c τ c' => c'.bindings.find? y = (τ.lastBound y).or (c.bindings.find? y))
    (Q := fun loop _ _ c results c' => y ∉ loop.names →
      c'.bindings.find? y =
        (Trace.lastBoundIn y (results.map (·.1))).or (c.bindings.find? y))
  case fixed => exact fun s c => rfl
  case text => exact fun s c written _ => rfl
  case done => exact fun c => rfl
  case next =>
    intro part rest c first m others c' _ _ hfirst hrest
    rw [hrest, hfirst, Trace.lastBound, Option.or_assoc]
  case guardHeld => exact fun test body c trace c' _ hbody => hbody
  case guardFailed => exact fun test body c _ => rfl
  case branchHeld => exact fun test body rest fallback c trace c' _ hbody => hbody
  case branchFailed => exact fun test body rest fallback c trace c' _ hrest => hrest
  case fallback => exact fun body c trace c' hbody => hbody
  case noBranch => exact fun c => rfl
  case noEntry =>
    intro loop body c _
    simp [Trace.lastBound, Trace.lastBoundIn]
  case loop =>
    intro loop body c entries results m _ _ hinside
    change (loop.restore c m).bindings.find? y = _
    rw [Loop.find?_restore, Trace.lastBound]
    by_cases hname : y ∈ loop.names
    · rw [if_pos hname, if_pos hname, Option.none_or]
    · rw [if_neg hname, if_neg hname, hinside hname]
  case roundsDone => exact fun loop body c _ => rfl
  case round =>
    intro loop body entry rest c trace m others c' _ _ hbody hrest hname
    rw [hrest hname, hbody, loop.find?_enter_eq_or hy, Loop.entryValue?_of_not_mem hname,
      Option.none_or, List.map_cons, Trace.lastBoundIn, Option.or_assoc]
  case trimmed => exact fun affixes body c trace m hbody => hbody
  case bind =>
    intro name expression c value _
    rw [Context.bind, Entries.find?_insert, Trace.lastBound]
    split <;> rfl

end Template

/-! ### Markers and what a name held -/

namespace Trace

/-- Where `y` had the binding `before`, an evaluation wrote a marker with the body `body` while `y`
had the binding `held`, and `left` is what the body is when the iterations around it have pointed
their variables at themselves. -/
inductive Writes (y : String) (body : List Char) :
    (before : Option Value) → Trace → (held : Option Value) → (left : List Char) → Prop where
  | wrote {before : Option Value} {s : String}
      (hbody : .token body ∈ Marker.placeholder.pieces s.toList) :
      Writes y body before (.wrote s) before body
  | first {before held : Option Value} {first rest : Trace} {left : List Char}
      (h : Writes y body before first held left) :
      Writes y body before (.before first rest) held left
  | rest {before held : Option Value} {first rest : Trace} {left : List Char}
      (h : Writes y body ((first.lastBound y).or before) rest held left) :
      Writes y body before (.before first rest) held left
  | taken {before held : Option Value} {trace : Trace} {left : List Char}
      (h : Writes y body before trace held left) : Writes y body before (.taken trace) held left
  | declined {before held : Option Value} {trace : Trace} {left : List Char}
      (h : Writes y body before trace held left) :
      Writes y body before (.declined trace) held left
  | fallback {before held : Option Value} {trace : Trace} {left : List Char}
      (h : Writes y body before trace held left) :
      Writes y body before (.fallback trace) held left
  | trimmed {before held : Option Value} {affixes : Affixes} {trace : Trace} {left : List Char}
      (h : Writes y body before trace held left) :
      Writes y body before (.trimmed affixes trace) held left
  | round {before held : Option Value} {loop : Loop} {iteration : Iteration} {trace : Trace}
      {earlier later : List (Iteration × Trace)} {left : List Char}
      (h : Writes y body ((loop.entryValue? iteration.entry y).or
        ((lastBoundIn y earlier).or before)) trace held left) :
      Writes y body before (.loop loop (earlier ++ (iteration, trace) :: later)) held
        (loop.renameChars iteration.number left)

variable {τ : Trace} {y : String} {before held : Option Value} {rest left : List Char}

/-- A marker that begins with a name is left as it was written, and then the name stays bound if it
was bound where the marker was written; or it is pointed at an iteration that has the name for a
variable. -/
theorem Writes.left_eq_or (h : Writes y (y.toList ++ rest) before τ held left) (hy : PlainName y)
    (hrest : endsRoot rest = true) (hplain : ∀ e ∈ τ.iterations, e.1.Plain) :
    left = y.toList ++ rest ∧ (held.isSome = true → ((τ.lastBound y).or before).isSome = true) ∨
      ∃ e ∈ τ.iterations, y ∈ e.1.names ∧
        left = (iterationName y e.2.number).toList ++ rest := by
  induction h with
  | wrote _ => exact Or.inl ⟨rfl, id⟩
  | first _ ih =>
    rcases ih fun e he => hplain e (List.mem_append_left _ he) with
      ⟨hleft, hsome⟩ | ⟨e, he, htaken⟩
    · refine Or.inl ⟨hleft, fun hheld => ?_⟩
      rw [lastBound, Option.or_assoc, Option.isSome_or, hsome hheld, Bool.or_true]
    · exact Or.inr ⟨e, List.mem_append_left _ he, htaken⟩
  | rest _ ih =>
    rcases ih fun e he => hplain e (List.mem_append_right _ he) with
      ⟨hleft, hsome⟩ | ⟨e, he, htaken⟩
    · refine Or.inl ⟨hleft, fun hheld => ?_⟩
      rw [lastBound, Option.or_assoc]
      exact hsome hheld
    · exact Or.inr ⟨e, List.mem_append_right _ he, htaken⟩
  | taken _ ih | declined _ ih | fallback _ ih | trimmed _ ih => exact ih hplain
  | @round before held loop iteration trace earlier later left _ ih =>
    have hround : (iteration, trace) ∈ earlier ++ (iteration, trace) :: later :=
      List.mem_append_right _ (List.mem_cons_self ..)
    obtain ⟨hself, hinner⟩ := @mem_roundIterations loop iteration _ trace hround
    have hloop := hplain _ hself
    -- a marker that is free so far is taken by this loop exactly if the name is one of its own
    rcases ih fun e he => hplain e (hinner e he) with ⟨rfl, hsome⟩ | ⟨e, he, hname, rfl⟩
    · by_cases hname : y ∈ loop.names
      · exact Or.inr ⟨_, hself, hname, Loop.renameChars_of_mem hloop hname hrest _⟩
      · refine Or.inl ⟨?_, fun hheld => ?_⟩
        · refine Loop.renameChars_of_ne hloop hy.isRoot (fun x hx hxy => hname ?_) hrest _
          exact String.toList_inj.1 hxy ▸ hx
        · have hlast := hsome hheld
          rw [Loop.entryValue?_of_not_mem hname, Option.none_or] at hlast
          rw [lastBound, if_neg hname, lastBoundIn_append, lastBoundIn, Option.or_assoc,
            Option.or_assoc, Option.isSome_or, hlast, Bool.or_true]
    · refine Or.inr ⟨e, hinner e he, hname, ?_⟩
      exact Loop.renameChars_iterationName hloop hy hrest _ _

end Trace

/-! ### Values -/

/-- Placeholders that are bound to what a path leads to from one value are bound to what it leads
to from another exactly if there are no values, or no such placeholders, or the path leads to the
same. -/
theorem BoundSql.bindsTo_iff_of_bindsTo {b : BoundSql} {text : String} {body path : List Char}
    {v w : Value} (h : b.BindsTo text body w path) :
    b.BindsTo text body v path ↔
      (.ofList body ∈ Marker.placeholder.bodies text → ∀ access : Access,
        (b.values? access).isSome = true →
          (access.resolve? w (.ofList path)).getD .null =
            (access.resolve? v (.ofList path)).getD .null) := by
  constructor
  · intro hv hmem access hvalues
    obtain ⟨k, hk⟩ := List.mem_iff_getElem?.1 hmem
    obtain ⟨vs, hvs⟩ := Option.isSome_iff_exists.1 hvalues
    exact Option.some.inj ((h access vs k hvs hk).symm.trans (hv access vs k hvs hk))
  · intro hsame access vs k hvs hk
    rw [h access vs k hvs hk, hsame (List.mem_of_getElem? hk) access (by rw [hvs]; rfl)]

namespace Template

/-- **Bound names have their last values.** Where a template whose names are plain is bound, there
are values unless one of the properties of the text is cut within a character. Where there are, take
a placeholder that was written with a name in front while the name was bound to a value. It has the
value that its path leads to from what the name is bound to at the end of the evaluation, or, where
the name is a variable of a loop around it, from the entry of the iteration that it is pointed at.
So it has what its path leads to from the value of then if and only if the path leads to the same
from both. -/
theorem bound_names_bind {t : Template} (ht : t.PlainNames) {engine : Engine}
    {hint dialect : Option String} {parameter : Value} {b : BoundSql}
    (h : (Source.live t hint).bind engine parameter dialect = .ok b) :
    ∃ τ c', (t.trace (engine.surroundings parameter)).Gives (.initial dialect) τ c' ∧
      c'.sql.toList = τ.text ∧
      bindPlaceholders engine.placeholder hint (engine.finish c').1 = .ok (b.sql, b.mappings) ∧
      (∀ access, b.values? access = none ↔ ∃ m ∈ b.mappings, b.Unreadable m.property) ∧
      ∀ (y : String) (rest left : List Char) (v : Value), PlainName y →
        endsVariable rest = true → τ.Writes y (y.toList ++ rest)
          ((Context.initial dialect).bindings.find? y) (some v) left →
        ∃ w, b.BindsTo (engine.finish c').1 left w (pathFrom rest) ∧
          (left = y.toList ++ rest ∧
              (τ.lastBound y).or ((Context.initial dialect).bindings.find? y) = some w ∨
            ∃ loop iteration, (loop, iteration) ∈ τ.iterations ∧
              left = (iterationName y iteration.number).toList ++ rest ∧
              (loop.item = some y ∧ w = iteration.entry.2 ∨
                loop.index = some y ∧ w = iteration.entry.1)) ∧
          (b.BindsTo (engine.finish c').1 left v (pathFrom rest) ↔
            (.ofList left ∈ Marker.placeholder.bodies (engine.finish c').1 → ∀ access : Access,
              (b.values? access).isSome = true →
                (access.resolve? w (.ofList (pathFrom rest))).getD .null =
                  (access.resolve? v (.ofList (pathFrom rest))).getD .null)) := by
  obtain ⟨produced, c', hrender, hadditional, hbind⟩ := Source.exists_gives_of_bind h
  obtain ⟨τ, htrace, -⟩ := gives_render.1 hrender
  have hbound := bound_of_trace ht htrace
  have htext : c'.sql.toList = τ.text := by
    rw [sql_of_trace htrace]
    exact Context.nil_join _
  refine ⟨τ, c', htrace, htext, hbind, fun _ => BoundSql.values?_eq_none_iff_unreadable hbind,
    fun y rest left v hy hrest hwrites => ?_⟩
  rcases hwrites.left_eq_or hy (endsRoot_of_endsVariable hrest) fun e he => (hbound e he).plain with
    ⟨rfl, hsome⟩ | ⟨e, he, hname, rfl⟩
  · obtain ⟨w, hw⟩ := Option.isSome_iff_exists.1 (hsome rfl)
    have hbinds : b.BindsTo (engine.finish c').1 (y.toList ++ rest) w (pathFrom rest) := by
      refine BoundSql.bindsTo_of_isRoot hbind hy.isRoot hrest ?_
      rw [hadditional, find?_of_trace hy.ne_iterationName htrace, hw]
    exact ⟨w, hbinds, Or.inl ⟨rfl, hw⟩, BoundSql.bindsTo_iff_of_bindsTo hbinds⟩
  · obtain ⟨w, hw, hentry⟩ : ∃ w, c'.bindings.find? (iterationName y e.2.number) = some w ∧
        (e.1.item = some y ∧ w = e.2.entry.2 ∨ e.1.index = some y ∧ w = e.2.entry.1) := by
      rcases Loop.mem_names.1 hname with hindex | hitem
      · exact ⟨_, (hbound e he).index y hindex, Or.inr ⟨hindex, rfl⟩⟩
      · exact ⟨_, (hbound e he).item y hitem, Or.inl ⟨hitem, rfl⟩⟩
    have hbinds : b.BindsTo (engine.finish c').1 ((iterationName y e.2.number).toList ++ rest) w
        (pathFrom rest) :=
      BoundSql.bindsTo_of_find? hbind hy hrest (hadditional ▸ hw)
    exact ⟨w, hbinds, Or.inr ⟨e.1, e.2, he, rfl, hentry⟩, BoundSql.bindsTo_iff_of_bindsTo hbinds⟩

/-- The attributes of a loop over rows. -/
def rebinding.attributes : Loop where
  collection := "rows"
  item := some "x"

/-- A loop that binds another name to its item, and has a placeholder with this name. -/
def rebinding : Template :=
  .loop rebinding.attributes (.sequence [.bind "y" "x", .fixed "#{y}"])

theorem plainNames_rebinding : rebinding.PlainNames := by
  decide +kernel

namespace rebinding

/-- A parameter with two rows. -/
def rows : Value :=
  .object [("rows", .array [.ofInt 1, .ofInt 2])]

/-- The iteration for a row, and what it does. -/
def round (n : Nat) (row : Value) : Iteration × Trace :=
  ({ number := n, entry := (.ofNat n, row) },
    .before (.bound "y" row) (.before (.wrote "#{y}") .nothing))

/-- What the loop does for the two rows. -/
def run : Trace :=
  .loop attributes ([] ++ round 0 (.ofInt 1) :: [round 1 (.ofInt 2)])

/-- What the two iterations leave behind. -/
def last : Context where
  bindings := [("__frch_x_0", .ofInt 1), ("__frch_x_1", .ofInt 2), (dialectName, .null),
    ("y", .ofInt 2)]
  sql := "#{y}#{y}"
  counter := 2

set_option maxRecDepth 20000 in
theorem gives_run :
    (rebinding.trace (Engine.surroundings {} rows)).Gives (.initial none) run last := by
  cbv

/-- The name is bound to the first row where the first marker is written. -/
theorem writes_run : run.Writes "y" "y".toList none (some (.ofInt 1)) "y".toList := by
  have hbody : .token "y".toList ∈ Marker.placeholder.pieces "#{y}".toList := by
    decide +kernel
  have hround : (round 0 (.ofInt 1)).2.Writes "y" "y".toList none (some (.ofInt 1)) "y".toList :=
    .rest (.first (.wrote hbody))
  have hleft : attributes.renameChars 0 "y".toList = "y".toList := by
    decide +kernel
  have h : run.Writes "y" "y".toList none (some (.ofInt 1))
      (attributes.renameChars 0 "y".toList) := .round hround
  rwa [hleft] at h

/-- What the template is bound to. -/
def bound : BoundSql where
  sql := "??"
  mappings := [{ property := "y" }, { property := "y" }]
  parameter := rows
  additional := last.bindings

theorem bind_run : (Source.live rebinding none).bind {} rows none = .ok bound := by
  have hrender : Engine.render {} rebinding rows none = .ok ("#{y}#{y}", last.bindings) :=
    Engine.render_eq_ok_iff.2 ⟨true, last, gives_render.2 ⟨run, gives_run, rfl⟩, by cbv⟩
  rw [Source.bind, hrender]
  cbv

theorem values?_bound : bound.values? .lenient = some [.ofInt 2, .ofInt 2] := by
  cbv

end rebinding

open rebinding in
/-- Both placeholders have the second row, also the one that was written for the first. -/
theorem bound_names_bind_rebinding :
    rebinding.PlainNames ∧ ∃ b, (Source.live rebinding none).bind {} rows none = .ok b ∧
      (b.values? .lenient).isSome = true ∧
      b.BindsTo "#{y}#{y}" "y".toList (.ofInt 2) [] ∧
      ¬ b.BindsTo "#{y}#{y}" "y".toList (.ofInt 1) [] := by
  obtain ⟨τ, c', htrace, -, -, -, hall⟩ := bound_names_bind plainNames_rebinding bind_run
  obtain ⟨rfl, rfl⟩ := gives_run.unique htrace
  have htext : (Engine.finish {} last).1 = "#{y}#{y}" := by
    decide +kernel
  have hy : PlainName "y" := by
    decide +kernel
  have hplace : .ofList "y".toList ∈ Marker.placeholder.bodies "#{y}#{y}" := by
    decide +kernel
  obtain ⟨w, hbinds, hcases, hiff⟩ := hall "y" [] "y".toList (.ofInt 1) hy rfl (by
    rw [List.append_nil]
    exact writes_run)
  rw [htext] at hbinds hiff
  have hw : w = .ofInt 2 := by
    rcases hcases with ⟨-, hlast⟩ | ⟨loop, iteration, -, hname, -⟩
    · exact (Option.some.inj hlast).symm
    · rw [List.append_nil] at hname
      exact absurd (String.toList_inj.1 hname) (hy.ne_iterationName _ _)
  subst hw
  have hvalues : (bound.values? .lenient).isSome = true := by
    rw [values?_bound]
    rfl
  refine ⟨plainNames_rebinding, _, bind_run, hvalues, hbinds, fun hheld => ?_⟩
  have hsame := hiff.1 hheld hplace .lenient hvalues
  rw [pathFrom_nil, Access.resolve?_nil, Access.resolve?_nil] at hsame
  simp [Value.ofInt] at hsame

open rebinding in
/-- A name that a loop binds in each iteration holds the first row where the placeholder of the
first iteration is written, and this placeholder has the second row. -/
theorem placeholder_has_later_row :
    (rebinding.trace (Engine.surroundings {} rows)).Gives (.initial none) run last ∧
      run.Writes "y" "y".toList none (some (.ofInt 1)) "y".toList ∧
      ((Source.live rebinding none).bind {} rows none).map
        (fun b => (b.sql, b.values? .lenient)) = .ok ("??", some [.ofInt 2, .ofInt 2]) := by
  refine ⟨gives_run, writes_run, ?_⟩
  rw [bind_run, Except.map, values?_bound]
  rfl

end Template

end SqlTemplate
