import SqlTemplate.Template.Iteration

/-!
# Rendering templates

The evaluation of a template writes SQL and tells whether the template produced anything. A
template that failed leaves behind what it had written and bound until then.
-/

namespace SqlTemplate.Template

mutual

/-- The evaluation of a template. -/
def render (surroundings : Surroundings) : Template → Evaluation Bool
  | .fixed s => do
    Evaluation.write s
    return true
  | .text s => do
    let written ← Evaluation.read (·.substitute surroundings s)
    Evaluation.write written
    return true
  | .sequence parts => renderAll surroundings parts
  | .guarded test body => do
    if ← Evaluation.read (·.boolean surroundings test) then
      let _ ← render surroundings body
      return true
    return false
  | .choice branches fallback => do
    if ← renderBranch surroundings branches then return true
    match fallback with
    | some body =>
      let _ ← render surroundings body
      return true
    | none => return false
  | .loop attributes body => attributes.run surroundings (render surroundings body)
  | .trimmed affixes body => do
    let (produced, inner) ← Evaluation.capture (render surroundings body)
    match affixes.enclose? inner with
    | some wrapped => Evaluation.write wrapped
    | none => pure ()
    return produced
  | .bind name expression => do
    let value ← Evaluation.read (·.value surroundings expression)
    modify (·.bind name value)
    return true

/-- The evaluation of templates one after another, which produces something if one of them
does. -/
def renderAll (surroundings : Surroundings) : List Template → Evaluation Bool
  | [] => return false
  | part :: rest => do
    let first ← render surroundings part
    let others ← renderAll surroundings rest
    return first || others

/-- The evaluation of the first branch whose test holds, and whether there is one. -/
def renderBranch (surroundings : Surroundings) : List (String × Template) → Evaluation Bool
  | [] => return false
  | (test, body) :: rest => do
    if ← Evaluation.read (·.boolean surroundings test) then
      let _ ← render surroundings body
      return true
    renderBranch surroundings rest

end

end SqlTemplate.Template
