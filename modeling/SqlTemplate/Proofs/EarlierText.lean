import SqlTemplate.Proofs.Joining
import SqlTemplate.Proofs.Nodes
import SqlTemplate.Proofs.Outcome

/-!
# Evaluation behind earlier text

The text that is there before an evaluation has no part in it. An evaluation behind some text fails
or succeeds as it does on an empty one, with the same bindings and the same counter, and what it
wrote is joined to the text before it. This holds of failures too: a captured evaluation that fails
gives back the text before it, and what was written outside of it stays.

The property is one of evaluations (`Evaluation.Extends`). Each building block has it, and a
composed evaluation has it since joining is associative.

## Main definitions

* `Context.behind` : a state with a text before all that is written in it.
* `Evaluation.Extends` : an evaluation does the same behind any text.

## Main results

* `Evaluation.extends_capture` : a captured evaluation does so, whatever it captures.
* `Template.extends_render` : the evaluation of a template does so.
* `Template.render_behind_text` : rendering behind a text, with the laws of joining.
-/

namespace SqlTemplate

namespace Context

/-- The state with a text before all that is written in it. -/
def behind (c : Context) (s : String) : Context :=
  ({ c with sql := s } : Context).write c.sql

/-- What is written behind a text and then added to is added to behind that text. -/
theorem write_behind (c : Context) (s fragment : String) :
    (c.behind s).write fragment = (c.write fragment).behind s := by
  have hsql : ((c.behind s).write fragment).sql = ((c.write fragment).behind s).sql := by
    rw [← String.toList_inj]
    simp only [behind, toList_write_sql, join_assoc]
  exact congrArg (fun sql => ({ c with sql } : Context)) hsql

end Context

namespace Evaluation

variable {α β : Type}

/-- The evaluation does the same behind any text, and joins to it what it writes. -/
def Extends (e : Evaluation α) : Prop :=
  ∀ c s, e.run (c.behind s) = ((e.run c).1, (e.run c).2.behind s)

/-! ### Building blocks -/

theorem extends_pure (a : α) : (pure a : Evaluation α).Extends :=
  fun _ _ => rfl

theorem extends_bind {e : Evaluation α} {f : α → Evaluation β} (he : e.Extends)
    (hf : ∀ a, (f a).Extends) : (e >>= f).Extends := by
  intro c s
  rw [run_bind, run_bind, he c s]
  rcases e.run c with ⟨failure | a, m⟩
  · rfl
  · exact hf a m s

theorem run_read (f : Context → Except Failure α) (c : Context) : (read f).run c = (f c, c) := by
  change (read.liftExcept (f c)).run c = _
  rcases f c with failure | a <;> rfl

theorem extends_read {f : Context → Except Failure α} (hf : ∀ c s, f (c.behind s) = f c) :
    (read f).Extends := by
  intro c s
  rw [run_read, run_read, hf]

theorem extends_modify {f : Context → Context} (hf : ∀ c s, f (c.behind s) = (f c).behind s) :
    (modify f : Evaluation Unit).Extends :=
  fun c s => congrArg (fun c' => (Except.ok (), c')) (hf c s)

theorem extends_write (fragment : String) : (write fragment).Extends :=
  extends_modify fun c s => c.write_behind s fragment

theorem extends_next : next.Extends :=
  fun _ _ => rfl

/-- An evaluation may look at the state where it does not look at the text. -/
theorem extends_get_bind {f : Context → Evaluation β} (hsame : ∀ c s, f (c.behind s) = f c)
    (hf : ∀ c, (f c).Extends) : (get >>= f).Extends := by
  intro c s
  change (f (c.behind s)).run (c.behind s) = _
  rw [hsame, hf c c s]
  rfl

/-- A captured evaluation begins with the empty text, whatever text there was before, and that text
is there again where it ends. -/
theorem extends_capture (e : Evaluation α) : (capture e).Extends :=
  fun _ _ => rfl

end Evaluation

open Evaluation

/-! ### Loops -/

namespace Loop

variable (loop : Loop) (surroundings : Surroundings)

theorem bindEntry_behind (n : Nat) (entry : Value × Value) (c : Context) (s : String) :
    loop.bindEntry n entry (c.behind s) = (loop.bindEntry n entry c).behind s := by
  unfold bindEntry
  cases loop.item <;> cases loop.index <;> rfl

theorem restore_behind (earlier c : Context) (s : String) :
    loop.restore earlier (c.behind s) = (loop.restore earlier c).behind s := by
  unfold restore
  induction loop.names generalizing c with
  | nil => rfl
  | cons name names ih => exact ih (c.restore name (earlier.bindings.find? name))

theorem extends_iterate (body : Evaluation Bool) (entry : Value × Value) :
    (loop.iterate body entry).Extends := by
  refine extends_bind extends_next fun n => ?_
  refine extends_bind (extends_modify (loop.bindEntry_behind n entry)) fun _ => ?_
  exact extends_bind (extends_capture body) fun _ => extends_pure _

theorem extends_iterateAll (body : Evaluation Bool) (entries : List (Value × Value)) :
    (loop.iterateAll body entries).Extends := by
  induction entries with
  | nil => exact extends_pure _
  | cons entry rest ih =>
    exact extends_bind (loop.extends_iterate body entry) fun _ =>
      extends_bind ih fun _ => extends_pure _

/-- A loop does the same behind any text: its iterations are captured, and what is restored after
them are bindings. -/
theorem extends_run (body : Evaluation Bool) : (loop.run surroundings body).Extends := by
  refine extends_bind (extends_read fun _ _ => rfl) fun entries => ?_
  split
  · exact extends_pure _
  · refine extends_get_bind (fun _ _ => rfl) fun earlier => ?_
    refine extends_bind (loop.extends_iterateAll body entries) fun texts => ?_
    refine extends_bind (extends_modify (loop.restore_behind earlier)) fun _ => ?_
    exact extends_bind (extends_write _) fun _ => extends_pure _

end Loop

/-! ### Templates -/

namespace Template

variable (surroundings : Surroundings)

theorem extends_renderAll {parts : List Template}
    (h : ∀ p ∈ parts, (p.render surroundings).Extends) :
    (renderAll surroundings parts).Extends := by
  induction parts with
  | nil => exact extends_pure _
  | cons part rest ih =>
    rw [renderAll]
    refine extends_bind (h part (List.mem_cons_self ..)) fun _ => ?_
    exact extends_bind (ih fun p hp => h p (List.mem_cons_of_mem _ hp)) fun _ => extends_pure _

theorem extends_renderBranch {branches : List (String × Template)}
    (h : ∀ b ∈ branches, (b.2.render surroundings).Extends) :
    (renderBranch surroundings branches).Extends := by
  induction branches with
  | nil => exact extends_pure _
  | cons branch rest ih =>
    obtain ⟨test, body⟩ := branch
    rw [renderBranch]
    refine extends_bind (extends_read fun _ _ => rfl) fun holds => ?_
    cases holds with
    | true => exact extends_bind (h _ (List.mem_cons_self ..)) fun _ => extends_pure _
    | false => exact ih fun b hb => h b (List.mem_cons_of_mem _ hb)

/-- The evaluation of a template does the same behind any text. -/
theorem extends_render (t : Template) : (t.render surroundings).Extends := by
  induction t using Template.induction with
  | fixed s =>
    rw [render]
    exact extends_bind (extends_write s) fun _ => extends_pure _
  | text s =>
    rw [render]
    refine extends_bind (extends_read fun _ _ => rfl) fun written => ?_
    exact extends_bind (extends_write written) fun _ => extends_pure _
  | sequence parts ih =>
    rw [render]
    exact extends_renderAll surroundings ih
  | guarded test body ih =>
    rw [render]
    refine extends_bind (extends_read fun _ _ => rfl) fun holds => ?_
    cases holds with
    | true => exact extends_bind ih fun _ => extends_pure _
    | false => exact extends_pure _
  | choice branches fallback ihb ihf =>
    have hbranches := extends_renderBranch surroundings ihb
    cases fallback with
    | none =>
      rw [render]
      refine extends_bind hbranches fun taken => ?_
      cases taken <;> exact extends_pure _
    | some body =>
      rw [render]
      refine extends_bind hbranches fun taken => ?_
      cases taken with
      | true => exact extends_pure _
      | false => exact extends_bind (ihf body rfl) fun _ => extends_pure _
  | loop attributes body ih =>
    rw [render]
    exact attributes.extends_run surroundings _
  | trimmed affixes body ih =>
    rw [render]
    refine extends_bind (extends_capture _) fun ⟨produced, inner⟩ => ?_
    dsimp only
    split
    · exact extends_bind (extends_write _) fun _ => extends_pure _
    · exact extends_pure _
  | bind name expression =>
    rw [render]
    refine extends_bind (extends_read fun _ _ => rfl) fun value => ?_
    exact extends_bind (extends_modify fun _ _ => rfl) fun _ => extends_pure _

open Context in
/-- **Rendering behind a text.** Joining is associative and the empty text is its unit on either
side. A template that is rendered behind a text succeeds or fails as it does on the empty text, with
the same bindings and the same counter afterwards, and what it has written then is joined to that
text, whether it succeeded or failed. -/
theorem render_behind_text (surroundings : Surroundings) (t : Template) :
    (∀ u v w, join (join u v) w = join u (join v w)) ∧ (∀ u, join [] u = u ∧ join u [] = u) ∧
    ∀ (bindings : Entries Value) (counter : Nat) (s : String),
      let alone := (t.render surroundings).run { bindings, counter, sql := "" }
      (t.render surroundings).run { bindings, counter, sql := s } = (alone.1,
        { bindings := alone.2.bindings, counter := alone.2.counter,
          sql := .ofList (join s.toList alone.2.sql.toList) }) := by
  refine ⟨join_assoc, fun u => ⟨nil_join u, join_nil u⟩, fun bindings counter s => ?_⟩
  have hstart : ({ bindings, counter, sql := s } : Context) =
      ({ bindings, counter, sql := "" } : Context).behind s :=
    (write_empty _).symm
  intro alone
  rw [hstart]
  exact extends_render surroundings t _ s

end Template

end SqlTemplate
