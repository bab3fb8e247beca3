import Mathlib.Data.Finset.Card
import SqlTemplate.Expr.Cache
import SqlTemplate.Failure
import SqlTemplate.Proofs.VariantMaps

/-!
# Expressions read once

An evaluator that keeps the expressions it has read answers as one that reads each text anew. It
keeps those of the texts it was asked about that it could read, each with the expression that the
text writes (`ExprCache.Holds`). Reading one more text keeps this so, whether the text is kept
already, is new, or cannot be read. A text that is kept therefore leads to the expression that
reading it would lead to, and no answer depends on the calls made before. The number of expressions
kept is the number of different texts among the calls that can be read.

## Main definitions

* `ExprCache.Call`, `ExprCache.Answer` : what an evaluator is asked, and what it answers.
* `ExprCache.askAll` : calls made one after another.
* `Evaluator.answer` : the answer of an evaluator that keeps nothing.
* `ExprCache.Holds` : a cache keeps what was read from some texts.

## Main results

* `ExprCache.Holds.parse` : reading through a cache.
* `ExprCache.Holds.askAll` : any calls through a cache.
* `ExprCache.Holds.size_eq` : how many expressions are kept.
* `ExprCache.answers_as_fresh` : a cache does not show in any answer, and how large it becomes.
-/

namespace SqlTemplate

namespace ExprCache

/-! ### Calls -/

/-- What may be asked about a text: its value, whether it counts as true, or the keys and items of
the collection that it stands for. -/
inductive Question where
  | value
  | boolean
  | entries
  deriving DecidableEq, Repr

/-- A question about a text in a scope. -/
structure Call where
  question : Question
  scope : Scope
  source : String

/-- An answer to a question. -/
inductive Answer where
  | value (value : Value)
  | boolean (holds : Bool)
  | entries (entries : List (Value × Value))

/-- A result as an answer, or as a failure that names its text. -/
def Answer.ofResult {α : Type} (source : String) (answer : α → Answer)
    (result : Except ExprFault α) : Except Failure Answer :=
  (result.map answer).mapError (.expression source)

/-- The answer to a call, and the cache after it. -/
def ask (cache : ExprCache) (call : Call) : Except Failure Answer × ExprCache :=
  match call.question with
  | .value => (cache.value call.scope call.source).map (Answer.ofResult call.source .value) id
  | .boolean => (cache.boolean call.scope call.source).map (Answer.ofResult call.source .boolean) id
  | .entries => (cache.entries call.scope call.source).map (Answer.ofResult call.source .entries) id

/-- The answers to calls that are made one after another, and the cache after them. -/
def askAll (cache : ExprCache) : List Call → List (Except Failure Answer) × ExprCache
  | [] => ([], cache)
  | call :: rest =>
    let (answer, after) := cache.ask call
    let (answers, last) := after.askAll rest
    (answer :: answers, last)

end ExprCache

open ExprCache in
/-- The answer of an evaluator that keeps nothing. -/
def Evaluator.answer (evaluator : Evaluator) (call : Call) : Except Failure Answer :=
  match call.question with
  | .value => Answer.ofResult call.source .value (evaluator.value call.scope call.source)
  | .boolean => Answer.ofResult call.source .boolean (evaluator.boolean call.scope call.source)
  | .entries => Answer.ofResult call.source .entries (evaluator.entries call.scope call.source)

namespace ExprCache

/-! ### What is kept -/

/-- A cache keeps those of the texts that can be read, each with the expression that it writes, and
nothing else. -/
structure Holds (cache : ExprCache) (sources : Finset String) : Prop where
  ordered : cache.read.Ordered
  find?_eq_some_iff : ∀ source e,
    cache.read.find? source = some e ↔ source ∈ sources ∧ Expr.parse source = .ok e

theorem holds_empty : ({} : ExprCache).Holds ∅ where
  ordered := List.Pairwise.nil
  find?_eq_some_iff source e := by simp

variable {cache : ExprCache} {sources : Finset String}

/-- Reading a text through a cache is reading it, and afterwards the text is kept if it can be
read. -/
theorem Holds.parse (h : cache.Holds sources) (source : String) :
    (cache.parse source).1 = Expr.parse source ∧
      (cache.parse source).2.Holds (insert source sources) := by
  unfold ExprCache.parse
  cases hfind : cache.read.find? source with
  | some e =>
    obtain ⟨hmem, hparse⟩ := (h.find?_eq_some_iff source e).1 hfind
    rw [Finset.insert_eq_of_mem hmem]
    exact ⟨hparse.symm, h⟩
  | none =>
    -- nothing changes for the other texts
    have hother {s : String} (hs : source ≠ s) (e : Expr) : cache.read.find? s = some e ↔
        s ∈ insert source sources ∧ Expr.parse s = .ok e := by
      rw [h.find?_eq_some_iff, Finset.mem_insert, or_iff_right hs.symm]
    cases hparse : Expr.parse source with
    | ok e =>
      refine ⟨rfl, h.ordered.insert source e, fun s e' => ?_⟩
      rw [Entries.find?_insert]
      by_cases hs : source = s
      · subst s
        simp [hparse]
      · rw [if_neg hs, hother hs]
    | error fault =>
      refine ⟨rfl, h.ordered, fun s e' => ?_⟩
      by_cases hs : source = s
      · subst s
        simp [hfind, hparse]
      · exact hother hs e'

/-- As many expressions are kept as there are texts that can be read. -/
theorem Holds.size_eq (h : cache.Holds sources) :
    cache.size = (sources.filter fun source => (Expr.parse source).isOk).card := by
  have hkeys : cache.read.keys.toFinset =
      sources.filter fun source => (Expr.parse source).isOk := by
    ext source
    rw [List.mem_toFinset, Finset.mem_filter, h.ordered.mem_keys_iff]
    simp only [h.find?_eq_some_iff, exists_and_left]
    cases Expr.parse source <;> simp [Except.isOk, Except.toBool]
  have hnodup : cache.read.keys.Nodup :=
    h.ordered.imp fun hlt => hlt.ne
  rw [← hkeys, List.toFinset_card_of_nodup hnodup, Entries.keys, List.length_map, size]

/-! ### Calls through a cache -/

/-- What a call leaves behind does not depend on its question, nor on its scope. -/
theorem snd_ask (cache : ExprCache) (call : Call) :
    (cache.ask call).2 = (cache.parse call.source).2 := by
  unfold ask
  cases call.question <;> rfl

/-- A call through a cache is answered from the expression that reading its text through the cache
leads to. -/
theorem fst_ask {call : Call} (h : (cache.parse call.source).1 = Expr.parse call.source) :
    (cache.ask call).1 = Evaluator.standard.answer call := by
  have hvalue : (cache.value call.scope call.source).1 =
      Evaluator.standard.value call.scope call.source :=
    congrArg (·.bind (Expr.evaluate call.scope)) h
  unfold ask Evaluator.answer Evaluator.boolean Evaluator.entries
  rw [← hvalue]
  cases call.question <;> rfl

/-- Calls through a cache are answered as if nothing were kept, and afterwards their texts are kept
as well. -/
theorem Holds.askAll (h : cache.Holds sources) (calls : List Call) :
    (cache.askAll calls).1 = calls.map Evaluator.standard.answer ∧
      (cache.askAll calls).2.Holds (sources ∪ (calls.map (·.source)).toFinset) := by
  induction calls generalizing cache sources with
  | nil =>
    refine ⟨rfl, ?_⟩
    rw [List.map_nil, List.toFinset_nil, Finset.union_empty]
    exact h
  | cons call rest ih =>
    obtain ⟨hread, hafter⟩ := h.parse call.source
    rw [← snd_ask] at hafter
    obtain ⟨hanswers, hlast⟩ := ih hafter
    constructor
    · rw [List.map_cons, ← fst_ask hread, ← hanswers]
      rfl
    · rwa [List.map_cons, List.toFinset_cons, Finset.union_insert, ← Finset.insert_union]

/-- **A cache does not show.** Whatever is asked about whatever texts in whatever scopes, each call
to one evaluator that keeps what it reads is answered as by a new one, and so as by the evaluator
that keeps nothing, with the same failures. Afterwards there are as many expressions in the cache
as there are different texts among the calls that can be read. -/
theorem answers_as_fresh (calls : List Call) :
    (askAll {} calls).1 = calls.map (fun call => (ask {} call).1) ∧
    (askAll {} calls).1 = calls.map Evaluator.standard.answer ∧
    (askAll {} calls).2.size =
      ((calls.map (·.source)).toFinset.filter fun source => (Expr.parse source).isOk).card := by
  obtain ⟨hanswers, hholds⟩ := holds_empty.askAll calls
  refine ⟨?_, hanswers, ?_⟩
  · rw [hanswers]
    refine List.map_congr_left fun call _ => ?_
    exact (fst_ask (holds_empty.parse call.source).1).symm
  · rw [hholds.size_eq, Finset.empty_union]

end ExprCache

end SqlTemplate
