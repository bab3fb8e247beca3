import SqlTemplate.Proofs.Markers
import SqlTemplate.Proofs.Trace

/-!
# What a trace has written

The text that an evaluation writes is a function of its trace (`Trace.text`): fragments joined in
order, the texts of the iterations put together by their loop, and trimmed content in its affixes.
No value that the evaluation bound has a part in it, but for those that a text node substituted.

## Main definitions

* `Loop.iterationText`, `Loop.put` : the text of one iteration, and those of all together.
* `Affixes.enclosed` : content in its affixes, or nothing.
* `Trace.text` : the text of a trace.

## Main results

* `Template.sql_of_trace` : an evaluation joins the text of its trace to the text before it.
-/

namespace SqlTemplate

open Text Context

namespace Loop

/-- The body of a placeholder as an iteration leaves it, on lists of characters. -/
def renameChars (loop : Loop) (n : Nat) (body : List Char) : List Char :=
  (loop.renameBody n (.ofList body)).toList

theorem toList_rename (loop : Loop) (n : Nat) (text : String) :
    (loop.rename n text).toList =
      Marker.placeholder.refill (loop.renameChars n) text.toList := by
  rw [rename, Marker.toList_replace, Marker.refill]
  refine congrArg (fun f => List.flatMap f _) (funext fun p => ?_)
  cases p with
  | char c => rfl
  | token body => exact String.toList_ofList

/-- The text that an iteration comes to, where its body wrote `text`. -/
def iterationText (loop : Loop) (n : Nat) (text : List Char) : List Char :=
  trim (Marker.placeholder.refill (loop.renameChars n) text)

/-- The texts of iterations that are not empty, with the separator between them and the opening and
the closing around them. -/
def put (loop : Loop) (texts : List (List Char)) : List Char :=
  (loop.opening.getD "").toList ++
    (loop.separator.getD "").toList.intercalate (texts.filter (!·.isEmpty)) ++
    (loop.closing.getD "").toList

theorem toList_assemble (loop : Loop) (texts : List String) :
    (loop.assemble (texts.filter (!·.isEmpty))).toList = loop.put (texts.map String.toList) := by
  have hfilter : (texts.filter (!·.isEmpty)).map String.toList =
      (texts.map String.toList).filter (!·.isEmpty) := by
    rw [List.filter_map]
    refine congrArg (List.map String.toList) (List.filter_congr fun s _ => ?_)
    rw [Function.comp, Bool.eq_iff_iff]
    simp
  rw [assemble, put, String.toList_append, String.toList_append, String.toList_intercalate, hfilter]

end Loop

/-- Content in its affixes, or nothing where nothing is left of it. -/
def Affixes.enclosed (affixes : Affixes) (body : List Char) : List Char :=
  if (affixes.core body).isEmpty then [] else affixes.wrap (affixes.core body)

theorem Affixes.toList_enclose? (affixes : Affixes) (body : String) :
    ((affixes.enclose? body).getD "").toList = affixes.enclosed body.toList := by
  rw [enclose?, enclosed]
  split <;> simp_all

namespace Trace

mutual

/-- The text that an evaluation wrote. -/
def text : Trace → List Char
  | .nothing | .bound .. => []
  | .wrote s => s.toList
  | .before first rest => join first.text rest.text
  | .taken body | .fallback body => body.text
  | .declined rest => rest.text
  | .loop attributes rounds =>
    if rounds.isEmpty then [] else attributes.put (roundTexts attributes rounds)
  | .trimmed affixes body => affixes.enclosed body.text

/-- The texts of the iterations of a loop. -/
def roundTexts (loop : Loop) : List (Iteration × Trace) → List (List Char)
  | [] => []
  | (iteration, body) :: rest =>
    loop.iterationText iteration.number body.text :: roundTexts loop rest

end

end Trace

/-- An evaluation joins the text of its trace to the text that was there before it. -/
theorem Template.sql_of_trace {surroundings : Surroundings} {t : Template} {c c' : Context}
    {τ : Trace} (h : (t.trace surroundings).Gives c τ c') :
    c'.sql.toList = join c.sql.toList τ.text := by
  apply trace_induction (h := h)
    (P := fun _ c τ c' => c'.sql.toList = join c.sql.toList τ.text)
    (Q := fun loop _ entries c results c' => c'.sql = c.sql ∧
      results.length = entries.length ∧
      (results.map (·.2)).map String.toList = Trace.roundTexts loop (results.map (·.1)))
  case fixed => exact fun s c => toList_write_sql c s
  case text => exact fun s c written _ => toList_write_sql c written
  case done => exact fun c => rfl
  case next =>
    intro part rest c first m others c' _ _ hfirst hrest
    rw [hrest, hfirst, join_assoc, Trace.text]
  case guardHeld => exact fun test body c trace c' _ hbody => hbody
  case guardFailed => exact fun test body c _ => rfl
  case branchHeld => exact fun test body rest fallback c trace c' _ hbody => hbody
  case branchFailed => exact fun test body rest fallback c trace c' _ hrest => hrest
  case fallback => exact fun body c trace c' hbody => hbody
  case noBranch => exact fun c => rfl
  case noEntry => exact fun loop body c _ => rfl
  case loop =>
    rintro loop body c entries results m - hne ⟨hsql, hlength, htexts⟩
    have hrounds : (results.map (·.1)).isEmpty = false := by
      cases results with
      | nil => exact absurd (List.length_eq_zero_iff.1 hlength.symm) hne
      | cons result rest => rfl
    rw [toList_write_sql, Loop.restore_sql, hsql, Loop.toList_assemble, htexts, Trace.text, hrounds]
    rfl
  case roundsDone => exact fun loop body c => ⟨rfl, rfl, rfl⟩
  case round =>
    intro loop body entry rest c trace m others c' _ _ hbody hrest
    have htext : m.sql.toList = trace.text := by
      rw [hbody, Loop.enter_sql, String.toList_empty, nil_join]
    obtain ⟨hsql, hlength, htexts⟩ := hrest
    refine ⟨hsql, by simp [hlength], ?_⟩
    rw [List.map_cons, List.map_cons, List.map_cons, htexts, Trace.roundTexts, Loop.iterationText,
      ← htext, ← Loop.toList_rename, Text.trimmed, toList_mapChars]
  case trimmed =>
    intro affixes body c trace m hbody
    have htext : m.sql.toList = trace.text := by
      rw [hbody, String.toList_empty, nil_join]
    rw [toList_write_sql, Affixes.toList_enclose?, htext, Trace.text]
  case bind => exact fun name expression c value _ => rfl

end SqlTemplate
