import SqlTemplate.Catalog.Basic

/-!
# Inclusion of fragments

An `include` element is replaced by the content of the fragment that it refers to. Its properties
replace substitution markers of their names in that content, and in what the content includes in
turn. A fragment that would be included inside itself is a failure.

The expansion of a tree takes the expansion of an `include` element as a parameter. The latter
opens one fragment after another; each is one that was not open before, so there is an end to it.
-/

namespace SqlTemplate

open Text

/-- The id of an element under its namespace. An id with a point has to begin with the
namespace. -/
def qualifyId (space id element : String) : Except Failure String :=
  if (after? (space.toList ++ ['.']) id.toList).isSome then .ok id
  else if id.toList.contains '.' then .error (.invalidAttribute element "id" id)
  else .ok (space ++ "." ++ id)

/-- The id that a reference means: a reference without a point is local to the namespace. -/
def qualifyReference (space reference : String) : String :=
  if reference.toList.contains '.' then reference else space ++ "." ++ reference

namespace Inclusion

/-- The properties of an `include` element, and those around it. -/
abbrev Properties := Entries String

/-- The text in the place of a substitution marker: the property of that name, else the marker
itself. -/
def property (properties : Properties) (body : String) : String :=
  (properties.find? (trimmed body)).getD (Marker.substitution.write body)

/-- A text with the properties in the place of their markers. A text without markers is left
alone, as every text is where there are no properties. -/
def substitute (properties : Properties) (text : String) : String :=
  if properties.isEmpty || !Marker.substitution.occursIn text then text
  else Marker.substitution.replace (property properties) text

/-- Content with a piece in front; two texts that meet become one. -/
def cons (m : Markup) (content : List Markup) : List Markup :=
  match m, content with
  | .text s, .text t :: rest => .text (s ++ t) :: rest
  | m, content => m :: content

/-- Two lists of content one after the other; two texts that meet become one. -/
def append (first second : List Markup) : List Markup :=
  first.foldr cons second

/-- The properties that an `include` element adds to those around it. Their values are subject to
the latter. -/
def within (properties : Properties) (e : Element) : Except Failure Properties :=
  (e.elements.filter (·.name = "property")).foldlM (fun scope p => do
    let name ← p.required "name"
    let value ← p.required "value"
    return scope.insert name (substitute properties value)) properties

/-- The text of a piece of content, which is subject to properties inside a fragment alone. -/
def inText (properties : Properties) (inFragment : Bool) (s : String) : String :=
  if inFragment then substitute properties s else s

mutual

/-- A piece of content with the `include` elements in it replaced by what `splice` gives. -/
def expand (splice : Element → Except Failure (List Markup)) (properties : Properties)
    (inFragment : Bool) : Markup → Except Failure (List Markup)
  | .text s => .ok [.text (inText properties inFragment s)]
  | .element name attributes children =>
    if name = "include" then splice { name, attributes, children }
    else do
      let inner ← expandAll splice properties inFragment children
      return [.element name
        (attributes.map fun a => (a.1, inText properties inFragment a.2)) inner]

/-- A list of content with the `include` elements in it replaced. -/
def expandAll (splice : Element → Except Failure (List Markup)) (properties : Properties)
    (inFragment : Bool) : List Markup → Except Failure (List Markup)
  | [] => .ok []
  | m :: rest => do
    let first ← expand splice properties inFragment m
    let others ← expandAll splice properties inFragment rest
    return append first others

end

/-- The number of ids of fragments that are not open. -/
def closed (d : Draft) (opened : List String) : Nat :=
  (d.fragments.filter fun e => !opened.contains e.1).length

theorem closed_lt {d : Draft} {opened : List String} {id : String} {fragment : Element}
    (hf : d.fragment? id = some fragment) (ho : ¬opened.contains id) :
    closed d (id :: opened) < closed d opened := by
  obtain ⟨v, hv, -⟩ := Option.bind_eq_some_iff.1 hf
  unfold closed
  generalize d.fragments = m at hv
  induction m with
  | nil => simp at hv
  | cons e rest ih =>
    obtain ⟨k, w⟩ := e
    have hle : ∀ l : Entries (Variants Element),
        (l.filter fun e => !(id :: opened).contains e.1).length ≤
          (l.filter fun e => !opened.contains e.1).length := fun l => by
      simp only [← List.countP_eq_length_filter]
      refine List.countP_mono_left fun x _ hx => ?_
      simp only [List.contains_cons, Bool.not_or, Bool.and_eq_true] at hx
      exact hx.2
    by_cases hk : k = id
    · subst hk
      rw [List.filter_cons_of_neg (by simp), List.filter_cons_of_pos (by simpa using ho)]
      exact Nat.lt_succ_of_le (hle rest)
    · rw [Entries.find?, if_neg hk] at hv
      have hlt := ih hv
      by_cases hc : opened.contains k
      · rw [List.filter_cons_of_neg (by simp_all), List.filter_cons_of_neg (by simp_all)]
        exact hlt
      · rw [List.filter_cons_of_pos (by simp_all), List.filter_cons_of_pos (by simp_all)]
        exact Nat.succ_lt_succ hlt

/-- The content in the place of an `include` element of a statement of a namespace, inside the
fragments that are open. -/
def splice (d : Draft) (space : String) (opened : List String) (properties : Properties)
    (e : Element) : Except Failure (List Markup) := do
  let reference := substitute properties (← e.required "refid")
  let id := qualifyReference space reference
  if ho : opened.contains id then throw (.circularInclude id)
  else match hf : d.fragment? id with
    | none => throw (.fragmentNotFound reference)
    | some fragment =>
      let scope ← within properties e
      have := closed_lt hf ho
      expandAll (fun inner => splice d space (id :: opened) scope inner) scope true
        fragment.children
termination_by closed d opened

/-- The children of a statement with their `include` elements replaced. -/
def apply (d : Draft) (space : String) (content : List Markup) : Except Failure (List Markup) :=
  expandAll (splice d space [] []) [] false content

end Inclusion

end SqlTemplate
