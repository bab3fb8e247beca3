import SqlTemplate.Proofs.ExpressionWriting
import SqlTemplate.Proofs.IterationNames
import SqlTemplate.Proofs.PathSegments
import SqlTemplate.Property.Access

/-!
# Written paths

A path is written step after step: a field as its name after a point, a position as its number in
brackets, and a key as a name in brackets and quotes. These are segments whose names have no
points, so that the splitter gives them back.

## Main definitions

* `PathStep` : a step of a written path.
* `PathStep.IsPlain` : names are names of the expression language, positions have 63 bits.
* `PathStep.write` : the text of a path.
* `PathStep.segment` : the segment that a step is written as.

## Main results

* `PathStep.steps_write` : the splitter gives the steps of a path back.
-/

namespace SqlTemplate

open Text

/-- A step of a written path. -/
inductive PathStep where
  | field (name : String)
  | position (n : Nat)
  | key (name : String)
  deriving DecidableEq, Repr

namespace PathStep

/-- The characters that stand for what a step looks up. -/
def label : PathStep → List Char
  | .field name | .key name => name.toList
  | .position n => Nat.toDigits 10 n

/-- The quote before and after the label of a key. -/
def quotes : PathStep → List Char
  | .key _ => ['\'']
  | .field _ | .position _ => []

/-- The characters of a step. -/
def chars (step : PathStep) : List Char :=
  match step with
  | .field _ => '.' :: step.label
  | .position _ | .key _ => '[' :: (step.quotes ++ (step.label ++ step.quotes) ++ [']'])

/-- The text of a path. -/
def write (path : List PathStep) : String :=
  .ofList (path.flatMap chars)

/-- The step as the splitter has it. -/
def toStep (step : PathStep) : Step :=
  match step with
  | .field _ => .name (.ofList step.label)
  | .position _ | .key _ => .index (.ofList step.label)

/-- Fields and keys have names, and a position is a number that an expression can hold. -/
def IsPlain : PathStep → Prop
  | .field name | .key name => Expr.IsName name
  | .position n => n < 0x8000000000000000

instance : (step : PathStep) → Decidable step.IsPlain
  | .field name | .key name => inferInstanceAs (Decidable (Expr.IsName name))
  | .position n => inferInstanceAs (Decidable (n < 0x8000000000000000))

/-- A step that stands in brackets. -/
def InBrackets : PathStep → Prop
  | .field _ => False
  | .position _ | .key _ => True

/-! ### Characters of labels -/

theorem isPlain_of_isNameChar {c : Char} (h : Expr.isNameChar c = true) :
    SqlTemplate.isPlain c = true ∨ c = '$' := by
  simp only [Expr.isNameChar, Bool.or_eq_true, beq_iff_eq] at h
  simp only [SqlTemplate.isPlain, Bool.or_eq_true, beq_iff_eq]
  tauto

/-- A character of a name ends neither a part of a path nor a key. -/
theorem endsRoot_of_isNameChar {c : Char} (h : Expr.isNameChar c = true) :
    endsRoot [c] = false := by
  rcases isPlain_of_isNameChar h with hplain | rfl
  · exact endsRoot_of_isPlain hplain
  · decide

theorem label_isNameChar {step : PathStep} (h : step.IsPlain) :
    step.label ≠ [] ∧ ∀ c ∈ step.label, Expr.isNameChar c = true := by
  have hname {name : String} (h : Expr.IsName name) :
      name.toList ≠ [] ∧ ∀ c ∈ name.toList, Expr.isNameChar c = true := by
    obtain ⟨hhead, hall⟩ := h
    refine ⟨?_, List.all_eq_true.1 hall⟩
    intro hnil
    rw [hnil] at hhead
    cases hhead
  cases step with
  | field name => exact hname h
  | key name => exact hname h
  | position n =>
    have hnumeral := Expr.isNumeral_toDigits n
    refine ⟨hnumeral.ne_nil, fun c hc => ?_⟩
    have halphanum := isAlphanumeric_of_isAlphanum (hnumeral.isAlphanum (.inl rfl) c hc)
    simp [Expr.isNameChar, halphanum]

/-- A label has no character that a name lacks. -/
theorem ne_of_mem_label {step : PathStep} (h : step.IsPlain) {c d : Char} (hc : c ∈ step.label)
    (hd : Expr.isNameChar d = false) : c ≠ d := by
  rintro rfl
  rw [(label_isNameChar h).2 c hc] at hd
  cases hd

/-! ### Reading a path back -/

/-- The segment that a step is written as. -/
def segment (step : PathStep) : PropertyPath.Segment :=
  match step with
  | .field name => .name name
  | .position _ => .bare (.ofList step.label)
  | .key name => .quoted name

theorem toStep_segment (step : PathStep) : step.segment.toStep = step.toStep := by
  cases step <;> simp [segment, PropertyPath.Segment.toStep, toStep, label]

theorem behind_segment (step : PathStep) : step.segment.behind = step.chars := by
  cases step <;>
    simp [segment, PropertyPath.Segment.behind, PropertyPath.Segment.chars, chars, label, quotes]

theorem key_segment (step : PathStep) : step.segment.toStep.key.toList = step.label := by
  cases step <;> simp [segment, PropertyPath.Segment.toStep, Step.key, label]

theorem isProper_segment {step : PathStep} (h : step.IsPlain) :
    step.segment.IsProper ∧ step.segment.IsWhole := by
  have htrim (s : String) (hs : s.toList = step.label) : trimmed s = s := by
    have hblank : trim s.toList = s.toList := trim_of_forall fun c hc =>
      isBlank_of_endsRoot (endsRoot_of_isNameChar ((label_isNameChar h).2 c (hs ▸ hc)))
    rw [trimmed, mapChars, hblank, String.ofList_toList]
  have hquote (c : Char) (hc : c ∈ step.label) : PropertyPath.isQuote c = false := by
    simp [PropertyPath.isQuote, ne_of_mem_label h hc (d := '\'') (by decide),
      ne_of_mem_label h hc (d := '"') (by decide)]
  have hne (s : String) (hs : s.toList = step.label) : s ≠ "" := by
    rintro rfl
    exact (label_isNameChar h).1 hs.symm
  refine ⟨?_, ?_⟩
  · cases step with
    | field name =>
      exact ⟨hne name rfl, htrim name rfl, fun c hc => ⟨ne_of_mem_label h hc (by decide),
        ne_of_mem_label h hc (by decide), ne_of_mem_label h hc (by decide)⟩⟩
    | position n =>
      have hlabel := String.toList_ofList (l := label (.position n))
      exact ⟨hne _ hlabel, htrim _ hlabel, fun c hc =>
        ⟨ne_of_mem_label h (hlabel ▸ hc) (by decide), hquote c (hlabel ▸ hc)⟩⟩
    | key name => exact fun c hc => ⟨ne_of_mem_label h hc (by decide), hquote c hc⟩
  · rw [PropertyPath.Segment.IsWhole, key_segment]
    exact fun hpoint => ne_of_mem_label h hpoint (d := '.') (by decide) rfl

/-- The splitter gives the steps of a path back. -/
theorem steps_write {path : List PathStep} (hpath : ∀ step ∈ path, step.IsPlain) :
    PropertyPath.steps (write path) = path.map toStep := by
  have hsegments : ∀ g ∈ path.map segment, g.IsProper ∧ g.IsWhole :=
    List.forall_mem_map.2 fun step hstep => isProper_segment (hpath step hstep)
  have hread := PropertyPath.steps_flatMap (List.forall_mem_nil _) (List.forall_mem_nil _)
    hsegments
  simpa [write, List.flatMap_map, behind_segment, toStep_segment, Function.comp_def] using hread

end PathStep

end SqlTemplate
