import Mathlib
import SqlTemplate.Proofs.Scoping
import SqlTemplate.Proofs.WrittenText

/-!
# The shape of a loop

A loop visits the entries of its collection in order. A visit takes the next number of the counter,
binds the names of the loop, and evaluates the body into an empty text; the next visit goes on from
the bindings and the counter that the body left behind. What the bodies wrote, pointed at their
visits and trimmed, is put down where it is not empty, with a separator between two of them, the
opening before and the closing after them all.

## Main definitions

* `Visit`, `Loop.Visits` : the visits of a loop, each in the state that the one before left behind.
* `Loop.bound?` : what a visit binds a name to.
* `LoopPart`, `LoopPart.between` : the texts of the visits and the separators between them.

## Main results

* `Loop.Visits.numbers` : numbers are new, and ascend.
* `Loop.exists_visits_of_traceAll` : the iterations of a loop are visits.
* `Loop.render_shape` : what a loop does.
-/

namespace SqlTemplate

open Text

/-- A visit of a loop to one entry. -/
structure Visit where
  number : Nat
  entry : Value × Value
  /-- The state in which the body is evaluated. -/
  entered : Context
  /-- The state that the body leaves behind. -/
  left : Context

/-- What a visit comes to: what its body wrote, pointed at the visit and trimmed. -/
def Visit.text (loop : Loop) (visit : Visit) : String :=
  trimmed (loop.rename visit.number visit.left.sql)

/-- What stands between the opening and the closing of a loop. -/
inductive LoopPart where
  | text (s : String)
  | separator
  deriving DecidableEq

namespace LoopPart

/-- Texts with a separator between two of them. -/
def between (texts : List String) : List LoopPart :=
  (texts.map LoopPart.text).intersperse .separator

/-- What a part writes. -/
def written (loop : Loop) : LoopPart → List Char
  | .text s => s.toList
  | .separator => (loop.separator.getD "").toList

theorem flatMap_written (loop : Loop) (texts : List String) :
    (between texts).flatMap (written loop) =
      (loop.separator.getD "").toList.intercalate (texts.map String.toList) := by
  induction texts with
  | nil => rfl
  | cons s texts ih =>
    cases texts with
    | nil => simp [between, written, List.intercalate]
    | cons t texts =>
      simp only [between, List.map_cons, List.intersperse_cons_cons, List.flatMap_cons,
        List.intercalate, List.flatten_cons] at ih ⊢
      rw [ih]
      rfl

theorem count_separator (texts : List String) :
    (between texts).count .separator = texts.length - 1 := by
  induction texts with
  | nil => rfl
  | cons s texts ih =>
    cases texts with
    | nil => rfl
    | cons t texts =>
      simp only [between, List.map_cons, List.intersperse_cons_cons, List.length_cons] at ih ⊢
      rw [List.count_cons_of_ne (by simp), List.count_cons_self, ih]
      omega

end LoopPart

namespace Loop

variable {loop : Loop} {surroundings : Surroundings} {body : Template} {c last : Context}
  {entries : List (Value × Value)} {visits : List Visit}

/-- What the visit with a number binds a name to: the item under its own name and under that of the
visit, and so the index, unless the item has this name. -/
def bound? (loop : Loop) (n : Nat) (entry : Value × Value) (name : String) : Option Value :=
  if ∃ item, loop.item = some item ∧ (name = item ∨ name = iterationName item n) then
    some entry.2
  else if ∃ index, loop.index = some index ∧ (name = index ∨ name = iterationName index n) then
    some entry.1
  else none

/-- The visits to a list of entries from one state on. The first is made in this state, and the
others are made in the state that the body of the first leaves behind. -/
inductive Visits (loop : Loop) (surroundings : Surroundings) (body : Template) :
    Context → List (Value × Value) → List Visit → Context → Prop where
  | done (c : Context) : Visits loop surroundings body c [] [] c
  | next {c left last : Context} {entry : Value × Value} {rest : List (Value × Value)}
    {visits : List Visit} {produced : Bool}
    (hbody : (body.render surroundings).Gives (loop.enter entry c) produced left)
    (hrest : Visits loop surroundings body left rest visits last) :
    Visits loop surroundings body c (entry :: rest)
      ({ number := c.counter, entry, entered := loop.enter entry c, left } :: visits) last

/-! ### Entering the body -/

/-- The text written before does not matter to a visit. -/
theorem enter_with_sql (loop : Loop) (entry : Value × Value) (c : Context) (sql : String) :
    loop.enter entry { c with sql } = loop.enter entry c := by
  unfold enter bindEntry
  cases loop.item <;> cases loop.index <;> rfl

/-- A visit binds its names, and keeps the other bindings. -/
theorem find?_enter_eq (loop : Loop) (entry : Value × Value) (c : Context) (name : String) :
    (loop.enter entry c).bindings.find? name =
      (loop.bound? c.counter entry name).or (c.bindings.find? name) := by
  have hbind (x : String) (v : Value) (bindings : Entries Value) :
      ((bindings.insert (iterationName x c.counter) v).insert x v).find? name =
        if name = x ∨ name = iterationName x c.counter then some v else bindings.find? name := by
    simp only [Entries.find?_insert, @eq_comm _ x, @eq_comm _ (iterationName ..)]
    by_cases hx : name = x <;> by_cases hn : name = iterationName x c.counter <;> simp [hx, hn]
  unfold enter bindEntry bound?
  cases hitem : loop.item <;> cases hindex : loop.index <;>
    simp only [Context.bind, hbind, reduceCtorEq, Option.some.injEq, false_and, exists_false,
      exists_eq_left', if_false, Option.none_or]
  · split <;> rfl
  · split <;> rfl
  · split
    · rfl
    · split <;> rfl

namespace Visits

/-! ### What visits have in common -/

theorem map_entry (h : loop.Visits surroundings body c entries visits last) :
    visits.map (·.entry) = entries := by
  induction h with
  | done => rfl
  | next _ _ ih => rw [List.map_cons, ih]

/-- The numbers of visits are new, and ascend. -/
theorem numbers (h : loop.Visits surroundings body c entries visits last) :
    c.counter ≤ last.counter ∧ (visits.map (·.number)).Pairwise (· < ·) ∧
      ∀ v ∈ visits, c.counter ≤ v.number ∧ v.number < last.counter := by
  induction h with
  | done c => exact ⟨Nat.le_refl _, .nil, List.forall_mem_nil _⟩
  | @next c left last entry rest visits produced hbody _ ih =>
    obtain ⟨trace, htrace, -⟩ := Template.gives_render.1 hbody
    have hcount : c.counter + 1 ≤ left.counter := by
      simpa using (Template.frame_of_trace htrace).1
    obtain ⟨hlast, hascend, hrange⟩ := ih
    refine ⟨by omega, ?_, ?_⟩
    · rw [List.map_cons, List.pairwise_cons, List.forall_mem_map]
      refine ⟨fun v hv => ?_, hascend⟩
      exact Nat.lt_of_lt_of_le (Nat.lt_of_succ_le hcount) (hrange v hv).1
    · rw [List.forall_mem_cons]
      refine ⟨⟨Nat.le_refl _, by simp only; omega⟩, fun v hv => ?_⟩
      have hv := hrange v hv
      omega

/-- Each visit evaluates the body into an empty text, with its names bound and its number taken. -/
theorem entered (h : loop.Visits surroundings body c entries visits last) :
    ∀ v ∈ visits, v.entered.sql = "" ∧ v.entered.counter = v.number + 1 ∧
      (∀ name value, loop.bound? v.number v.entry name = some value →
        v.entered.bindings.find? name = some value) ∧
      ∃ produced, (body.render surroundings).Gives v.entered produced v.left := by
  induction h with
  | done => exact List.forall_mem_nil _
  | @next c left last entry rest visits produced hbody _ ih =>
    rw [List.forall_mem_cons]
    refine ⟨⟨enter_sql .., enter_counter .., fun name value hname => ?_, produced, hbody⟩, ih⟩
    rw [find?_enter_eq, hname, Option.some_or]

end Visits

/-! ### The visits of a loop -/

/-- The iterations of a loop are visits to its entries. Between two iterations the text is that of
before the loop, which no visit reads. -/
theorem exists_visits_of_traceAll (c : Context) (sql : String)
    {results : List ((Iteration × Trace) × String)} {m : Context}
    (h : (loop.traceAll (body.trace surroundings) entries).Gives { c with sql } results m) :
    ∃ visits last, loop.Visits surroundings body c entries visits last ∧
      results.map (·.2) = visits.map (Visit.text loop) ∧ m = { last with sql } := by
  induction entries generalizing c results with
  | nil =>
    obtain ⟨rfl, rfl⟩ := gives_traceAll_nil.1 h
    exact ⟨[], c, .done c, rfl, rfl⟩
  | cons entry rest ih =>
    obtain ⟨trace, left, others, hbody, hrest, rfl⟩ := gives_traceAll_cons.1 h
    rw [enter_with_sql] at hbody
    obtain ⟨visits, last, hvisits, htexts, rfl⟩ := ih left hrest
    have hrender := Template.gives_render.2 ⟨trace, hbody, rfl⟩
    refine ⟨_, last, .next hrender hvisits, ?_, rfl⟩
    rw [List.map_cons, List.map_cons, htexts]
    rfl

/-- The entries of a loop are those of its collection, or none where the collection is null and may
be. -/
theorem entries_eq_ok_iff :
    loop.entries surroundings c = .ok entries ↔
      c.entries surroundings loop.collection = .ok entries ∨
        (loop.nullable = true ∧ entries = [] ∧ ∃ source,
          c.entries surroundings loop.collection =
            .error (.expression source .nullCollection)) := by
  rw [Loop.entries]
  split
  · rename_i source hnull
    rw [hnull]
    cases loop.nullable <;> simp [eq_comm]
  · rename_i hnull
    constructor
    · exact .inl
    · rintro (h | ⟨-, -, source, h⟩)
      · exact h
      · exact absurd h (hnull source)

theorem toList_assemble_between (loop : Loop) (texts : List String) :
    (loop.assemble texts).toList = (loop.opening.getD "").toList ++
      (LoopPart.between texts).flatMap (LoopPart.written loop) ++
      (loop.closing.getD "").toList := by
  rw [assemble, String.toList_append, String.toList_append, String.toList_intercalate,
    LoopPart.flatMap_written]

/-- **The shape of a loop.** Where a loop succeeds, it has a list of entries: those of its
collection, or none where the collection is null and the loop is nullable. With no entries nothing
changes and nothing is produced. Otherwise something is produced, and the entries are visited in
order. Each visit takes a number that is new, binds with it the names of the loop, and evaluates
the body into an empty text, in the bindings that the visit before left behind. The loop then
appends its opening, the texts of the visits that are not empty with a separator between two of
them, and its closing, and puts its names back; there is one separator less than there are texts,
or none. -/
theorem render_shape {c' : Context} {produced : Bool}
    (h : ((Template.loop loop body).render surroundings).Gives c produced c') :
    ∃ entries,
      (c.entries surroundings loop.collection = .ok entries ∨
        (loop.nullable = true ∧ entries = [] ∧ ∃ source,
          c.entries surroundings loop.collection =
            .error (.expression source .nullCollection))) ∧
      (entries = [] → produced = false ∧ c' = c) ∧
      (entries ≠ [] → produced = true ∧ ∃ visits last,
        loop.Visits surroundings body c entries visits last ∧
        visits.map (·.entry) = entries ∧
        (visits.map (·.number)).Pairwise (· < ·) ∧
        (∀ v ∈ visits, c.counter ≤ v.number ∧ v.number < c'.counter ∧
          v.entered.sql = "" ∧ v.entered.counter = v.number + 1 ∧
          (∀ name value, loop.bound? v.number v.entry name = some value →
            v.entered.bindings.find? name = some value) ∧
          ∃ produced, (body.render surroundings).Gives v.entered produced v.left) ∧
        ∃ texts, texts = (visits.map (Visit.text loop)).filter (!·.isEmpty) ∧
          c' = (loop.restore c { last with sql := c.sql }).write (loop.assemble texts) ∧
          c'.sql.toList = Context.join c.sql.toList ((loop.opening.getD "").toList ++
            (LoopPart.between texts).flatMap (LoopPart.written loop) ++
            (loop.closing.getD "").toList) ∧
          (LoopPart.between texts).count .separator = texts.length - 1) := by
  obtain ⟨trace, htrace, hproduced⟩ := Template.gives_render.1 h
  obtain ⟨entries, hentries, hcases⟩ := Template.gives_trace_loop.1 htrace
  refine ⟨entries, entries_eq_ok_iff.1 hentries, ?_, ?_⟩
  · rintro rfl
    obtain ⟨-, rfl, rfl⟩ | ⟨hne, -⟩ := hcases
    · exact ⟨hproduced.symm, rfl⟩
    · exact absurd rfl hne
  · intro hne
    obtain ⟨hempty, -⟩ | ⟨-, results, m, hall, rfl, rfl⟩ := hcases
    · exact absurd hempty hne
    · obtain ⟨visits, last, hvisits, htexts, rfl⟩ := exists_visits_of_traceAll c c.sql hall
      have hlength := length_of_traceAll hall
      obtain ⟨-, hascend, hrange⟩ := hvisits.numbers
      have hentered := hvisits.entered
      refine ⟨?_, visits, last, hvisits, hvisits.map_entry, hascend, fun v hv => ?_, _, rfl, ?_,
        ?_, LoopPart.count_separator _⟩
      · rw [← hproduced, Trace.produced]
        cases results with
        | nil => exact absurd (List.length_eq_zero_iff.1 hlength.symm) hne
        | cons result results => rfl
      · refine ⟨(hrange v hv).1, ?_, hentered v hv⟩
        exact (restore_counter loop c { last with sql := c.sql }).symm ▸ (hrange v hv).2
      · rw [htexts]
      · rw [Context.toList_write_sql, restore_sql, htexts, toList_assemble_between]

/-- A loop of which two visits write nothing but a blank, with a loop in its body that takes numbers
of the same counter. -/
def skipping : Template :=
  .loop { collection := "rows", item := some "x", opening := some "(", closing := some ")",
          separator := some ", " }
    (.sequence [.guarded "x" (.fixed "#{x}"), .loop { collection := "rows" } (.fixed " ")])

/-- Four entries, of which the first and the third come to nothing. -/
theorem render_shape_skipping :
    let surroundings : Surroundings :=
      { parameter := .object [("rows", .array [.null, .bool true, .null, .bool true])],
        evaluator := .naming }
    let c' := ((skipping.render surroundings).run {}).2
    (skipping.render surroundings).Gives {} true c' ∧
      c'.sql = "(#{__frch_x_5}, #{__frch_x_15})" ∧
      ∃ loop texts, c'.sql.toList = Context.join [] ("(".toList ++
          (LoopPart.between texts).flatMap (LoopPart.written loop) ++ ")".toList) ∧
        (LoopPart.between texts).count .separator = texts.length - 1 := by
  intro surroundings c'
  have htrue : ((skipping.render surroundings).run {}).1.toOption = some true := by
    decide +kernel
  have hok : ((skipping.render surroundings).run {}).1.isOk = true := by
    decide +kernel
  obtain ⟨produced, h⟩ := Evaluation.exists_gives hok
  obtain rfl : true = produced :=
    Option.some.inj (htrue.symm.trans (congrArg (fun r => r.1.toOption) h))
  refine ⟨h, by decide +kernel, ?_⟩
  obtain ⟨entries, -, hempty, hvisits⟩ := render_shape h
  have hne : entries ≠ [] := fun he => Bool.noConfusion (hempty he).1
  obtain ⟨-, -, -, -, -, -, -, texts, -, -, hsql, hcount⟩ := hvisits hne
  exact ⟨_, texts, hsql, hcount⟩

end Loop

end SqlTemplate
