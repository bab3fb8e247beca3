import Mathlib.Tactic.MkIffOfInductiveProp
import SqlTemplate.Proofs.Outcome
import SqlTemplate.Proofs.Spans
import SqlTemplate.Template.Compilation

/-!
# Well-formed templates

Compiling goes down from element to element: into all content of most of them, into the branches of
a choice alone, and not into a binding. What it comes upon is visited. Content has a template
exactly if each visited element is proper by itself, and it is dynamic exactly if something is
visited that is not a fixed text: nothing else counts, however deep the content is nested.

## Main definitions

* `Element.compiled` : the content of an element that is visited with it.
* `Template.Visited` : what is visited from a list of content.
* `Element.IsProper` : what an element has to have by itself.
* `Template.WellFormed` : all visited elements are proper.

## Main results

* `Template.compiles_markup_iff` : one element, from its own properties and what is below it.
* `Template.compiles_iff_forall_visited` : a piece of content, from all that is visited.
* `Template.compiled_iff_wellFormed` : which content has a template, and which is dynamic.
-/

namespace SqlTemplate

/-! ### Directives by their tags -/

/-- The tag of a directive. -/
def Directive.tag : Directive → String
  | .trim => "trim"
  | .whereClause => "where"
  | .setClause => "set"
  | .loop => "foreach"
  | .guard => "if"
  | .choice => "choose"
  | .branch => "when"
  | .fallback => "otherwise"
  | .bind => "bind"

theorem Directive.ofTag?_eq_some_iff {name : String} {d : Directive} :
    ofTag? name = some d ↔ name = d.tag := by
  constructor
  · intro h
    unfold ofTag? at h
    split at h <;> cases h <;> rfl
  · rintro rfl
    cases d <;> rfl

namespace Element

/-! ### Elements by themselves -/

/-- The tags of directives. -/
def tags : List String :=
  ["trim", "where", "set", "foreach", "if", "choose", "when", "otherwise", "bind"]

/-- The tags of the branches of a choice. -/
def branchTags : List String :=
  ["when", "if", "otherwise"]

/-- The content of an element that is visited with it: of a choice the branches, of a binding
nothing, and all content of the other directives. -/
def compiled (e : Element) : List Markup :=
  if e.name = "choose" then (e.elements.filter fun child => child.name ∈ branchTags).map markup
  else if e.name ∈ tags ∧ e.name ≠ "bind" then e.children
  else []

/-- An element is proper if its tag and, below a choice, the tags of its children are known, if it
has the attributes that its directive needs, and if it has not several bodies without a test. -/
@[mk_iff]
structure IsProper (e : Element) : Prop where
  known : e.name ∈ tags
  test : e.name = "if" ∨ e.name = "when" → (e.attribute? "test").isSome
  collection : e.name = "foreach" → (e.attribute? "collection").isSome
  nullable : e.name = "foreach" → ∀ value, e.attribute? "nullable" = some value →
    Text.sameIgnoringCase value "true" ∨ Text.sameIgnoringCase value "false"
  binding : e.name = "bind" → (e.attribute? "name").isSome ∧ (e.attribute? "value").isSome
  branches : e.name = "choose" → ∀ child ∈ e.elements, child.name ∈ tags
  fallback : e.name = "choose" → e.elements.countP (·.name = "otherwise") ≤ 1

theorem exists_required_iff {e : Element} {name : String} :
    (∃ value, e.required name = .ok value) ↔ (e.attribute? name).isSome := by
  rw [required]
  cases e.attribute? name <;> simp

theorem exists_flag_iff {e : Element} {name : String} {default : Bool} :
    (∃ value, e.flag name default = .ok value) ↔ ∀ value, e.attribute? name = some value →
      Text.sameIgnoringCase value "true" ∨ Text.sameIgnoringCase value "false" := by
  rw [flag]
  cases e.attribute? name with
  | none => simp
  | some value => cases htrue : Text.sameIgnoringCase value "true" <;>
      cases hfalse : Text.sameIgnoringCase value "false" <;> simp [htrue, hfalse]

theorem mem_tags_iff {name : String} : name ∈ tags ↔ ∃ d, Directive.ofTag? name = some d := by
  simp only [Directive.ofTag?_eq_some_iff]
  constructor
  · intro h
    simp only [tags, List.mem_cons, List.not_mem_nil, or_false] at h
    rcases h with rfl | rfl | rfl | rfl | rfl | rfl | rfl | rfl | rfl
    exacts [⟨.trim, rfl⟩, ⟨.whereClause, rfl⟩, ⟨.setClause, rfl⟩, ⟨.loop, rfl⟩, ⟨.guard, rfl⟩,
      ⟨.choice, rfl⟩, ⟨.branch, rfl⟩, ⟨.fallback, rfl⟩, ⟨.bind, rfl⟩]
  · rintro ⟨d, rfl⟩
    cases d <;> simp [Directive.tag, tags]

theorem notMem_tags_iff {name : String} : name ∉ tags ↔ Directive.ofTag? name = none := by
  rw [mem_tags_iff, ← Option.ne_none_iff_exists', not_not]

/-- What is visited with an element are children of it. -/
theorem mem_children_of_mem_compiled {e : Element} {m : Markup} (h : m ∈ e.compiled) :
    m ∈ e.children := by
  unfold compiled at h
  split at h
  · obtain ⟨child, hchild, rfl⟩ := List.mem_map.1 h
    obtain ⟨m, hm, hread⟩ := List.mem_filterMap.1 (List.mem_filter.1 hchild).1
    cases m with
    | text s => cases hread
    | element name attributes children =>
      obtain rfl := Option.some.inj hread
      exact hm
  · split at h
    · exact h
    · cases h

theorem sizeOf_lt_of_mem_compiled {e : Element} {m : Markup} (h : m ∈ e.compiled) :
    sizeOf m < sizeOf e.markup := by
  have hlt := List.sizeOf_lt_of_mem (mem_children_of_mem_compiled h)
  rw [markup, Markup.element.sizeOf_spec]
  omega

end Element

namespace Template

/-- What is visited from a list of content. -/
inductive Visited (script : List Markup) : Markup → Prop
  | top {m : Markup} (hm : m ∈ script) : Visited script m
  | inner {e : Element} {m : Markup} (he : Visited script e.markup) (hm : m ∈ e.compiled) :
      Visited script m

/-- All visited elements are proper. -/
def WellFormed (script : List Markup) : Prop :=
  ∀ e : Element, Visited script e.markup → e.IsProper

/-- A piece of content has a node. -/
def Compiles (m : Markup) : Prop :=
  ∃ t, compile m = .ok t

/-! ### One element -/

/-- A list of content has nodes if each piece has one. -/
theorem exists_compileAll_iff {content : List Markup} :
    (∃ parts, compileAll content = .ok parts) ↔ ∀ m ∈ content, Compiles m := by
  induction content with
  | nil => simp [compileAll]
  | cons m rest ih =>
    simp only [compileAll, exists_bind_eq_ok_iff, exists_pure_eq_ok, and_true, exists_and_right,
      ih, List.forall_mem_cons, Compiles]

theorem exists_loopOf_iff {e : Element} :
    (∃ loop, loopOf e = .ok loop) ↔ (e.attribute? "collection").isSome ∧
      ∀ value, e.attribute? "nullable" = some value →
        Text.sameIgnoringCase value "true" ∨ Text.sameIgnoringCase value "false" := by
  simp only [loopOf, exists_bind_eq_ok_iff, exists_pure_eq_ok, and_true, exists_and_right,
    Element.exists_flag_iff, Element.exists_required_iff]

/-- The branches of a choice have nodes if the tags of all elements are known, each branch has a
node by itself, and there is one body without a test at most. -/
theorem exists_compileBranches_iff {hasFallback : Bool} {children : List Markup} :
    (∃ parts, compileBranches hasFallback children = .ok parts) ↔
      (∀ e ∈ children.filterMap Markup.element?, e.name ∈ Element.tags) ∧
      (∀ e ∈ children.filterMap Markup.element?, e.name ∈ Element.branchTags →
        Compiles e.markup) ∧
      (children.filterMap Markup.element?).countP (·.name = "otherwise") + hasFallback.toNat ≤
        1 := by
  induction children generalizing hasFallback with
  | nil => cases hasFallback <;> simp [compileBranches]
  | cons m rest ih =>
    cases m with
    | text s => rw [compileBranches, ih, List.filterMap_cons_none rfl]
    | element name attributes children =>
      have helements : (Markup.element name attributes children :: rest).filterMap
          Markup.element? = ⟨name, attributes, children⟩ :: rest.filterMap Markup.element? := rfl
      rw [helements, List.forall_mem_cons, List.forall_mem_cons, List.countP_cons]
      cases htag : Directive.ofTag? name with
      | none =>
        have hname := Element.notMem_tags_iff.2 htag
        rw [compileBranches, htag]
        simp [hname]
      | some d =>
        have hname : name ∈ Element.tags := Element.mem_tags_iff.2 ⟨d, htag⟩
        rw [compileBranches, htag, Element.markup, Compiles, compile, htag, and_iff_right hname]
        obtain rfl := Directive.ofTag?_eq_some_iff.1 htag
        cases d with
        | guard | branch =>
          simp only [exists_bind_eq_ok_iff, exists_pure_eq_ok, and_true, exists_and_right,
            Element.exists_required_iff, exists_compileAll_iff, ih]
          simp [Directive.tag, Element.branchTags, and_assoc, and_left_comm]
        | fallback =>
          cases hasFallback
          · simp only [Bool.false_eq_true, if_false, exists_bind_eq_ok_iff, exists_pure_eq_ok,
              and_true, exists_and_right, exists_compileAll_iff, ih]
            simp [Directive.tag, Element.branchTags, and_assoc, and_left_comm]
          · simp [Directive.tag]
        | trim | whereClause | setClause | loop | choice | bind =>
          simp [ih, Directive.tag, Element.branchTags]

/-- **One element.** It has a node exactly if it is proper and all that is visited with it has. -/
theorem compiles_markup_iff (e : Element) :
    Compiles e.markup ↔ e.IsProper ∧ ∀ m ∈ e.compiled, Compiles m := by
  obtain ⟨name, attributes, children⟩ := e
  rw [Compiles, Element.markup, compile]
  cases htag : Directive.ofTag? name with
  | none =>
    have hname := Element.notMem_tags_iff.2 htag
    refine iff_of_false ?_ fun h => hname h.1.known
    rintro ⟨t, ht⟩
    cases ht
  | some d =>
    obtain rfl := Directive.ofTag?_eq_some_iff.1 htag
    rw [Element.isProper_iff]
    cases d with
    | choice =>
      have hname : "choose" ∈ Element.tags := by
        simp [Element.tags]
      have hbelow : (∀ m ∈ Element.compiled ⟨"choose", attributes, children⟩, Compiles m) ↔
          ∀ child ∈ children.filterMap Markup.element?, child.name ∈ Element.branchTags →
            Compiles child.markup := by
        rw [Element.compiled, if_pos rfl, List.forall_mem_map]
        simp [Element.elements]
      simp only [exists_bind_eq_ok_iff, exists_pure_eq_ok, and_true, exists_compileBranches_iff,
        Directive.tag, hbelow]
      simp [hname, Element.elements, and_assoc, and_left_comm, and_comm]
    | loop =>
      simp only [exists_bind_eq_ok_iff, exists_pure_eq_ok, and_true, exists_and_right,
        exists_compileAll_iff, exists_loopOf_iff]
      simp [Directive.tag, Element.tags, Element.attribute?, Element.compiled]
    | trim | whereClause | setClause | guard | branch | fallback | bind =>
      simp only [exists_bind_eq_ok_iff, exists_pure_eq_ok, and_true, exists_and_right,
        Element.exists_required_iff, exists_compileAll_iff]
      simp [Directive.tag, Element.tags, Element.attribute?, Element.compiled]

/-! ### All that is visited -/

theorem Visited.mono {script script' : List Markup} (h : ∀ m ∈ script, Visited script' m)
    {m : Markup} (hm : Visited script m) : Visited script' m := by
  induction hm with
  | top hm => exact h _ hm
  | inner _ hm ih => exact .inner ih hm

theorem visited_iff_exists {script : List Markup} {m : Markup} :
    Visited script m ↔ ∃ first ∈ script, Visited [first] m := by
  constructor
  · intro h
    induction h with
    | top hm => exact ⟨_, hm, .top List.mem_cons_self⟩
    | inner _ hm ih =>
      obtain ⟨first, hfirst, h⟩ := ih
      exact ⟨first, hfirst, .inner h hm⟩
  · rintro ⟨first, hfirst, h⟩
    exact h.mono fun m hm => List.mem_singleton.1 hm ▸ .top hfirst

/-- What is visited is content itself, or there is an element in the content. -/
theorem Visited.mem_or_exists {script : List Markup} {m : Markup} (h : Visited script m) :
    m ∈ script ∨ ∃ e : Element, e.markup ∈ script := by
  induction h with
  | top hm => exact .inl hm
  | inner _ _ ih => exact .inr (ih.elim (fun he => ⟨_, he⟩) id)

theorem compiles_of_visited (m : Markup)
    (h : ∀ e : Element, Visited [m] e.markup → e.IsProper) : Compiles m := by
  -- what is visited with an element is smaller than the element
  induction hn : sizeOf m using Nat.strongRecOn generalizing m with
  | ind n ih =>
    cases m with
    | text s => exact ⟨ofText s, by rw [compile]⟩
    | element name attributes children =>
      set e : Element := ⟨name, attributes, children⟩
      have htop : Visited [e.markup] e.markup := .top List.mem_cons_self
      refine (compiles_markup_iff e).2 ⟨h e htop, fun m hm => ?_⟩
      have hsize := Element.sizeOf_lt_of_mem_compiled hm
      refine ih (sizeOf m) (hn ▸ hsize) m (fun e' he' => h e' (he'.mono fun m' hm' => ?_)) rfl
      obtain rfl := List.mem_singleton.1 hm'
      exact .inner htop hm

/-- **All content below.** A piece of content has a node exactly if each element that is visited
from it is proper. -/
theorem compiles_iff_forall_visited (m : Markup) :
    Compiles m ↔ ∀ e : Element, Visited [m] e.markup → e.IsProper := by
  refine ⟨fun h e he => ?_, compiles_of_visited m⟩
  have hall {m' : Markup} (hm' : Visited [m] m') : Compiles m' := by
    induction hm' with
    | top hm' =>
      rw [List.mem_singleton] at hm'
      rwa [hm']
    | inner _ hm' ih => exact ((compiles_markup_iff _).1 ih).2 _ hm'
  exact ((compiles_markup_iff e).1 (hall he)).1

/-- Content has a template if all elements that are visited in it are proper. -/
theorem exists_ofContent_iff {script : List Markup} :
    (∃ t, ofContent script = .ok t) ↔ WellFormed script := by
  have hcontent : (∃ t, ofContent script = .ok t) ↔
      ∃ parts, compileAll script = .ok parts := by
    rw [ofContent]
    cases compileAll script <;> simp [Except.map]
  simp only [hcontent, exists_compileAll_iff, compiles_iff_forall_visited]
  constructor
  · intro h e he
    obtain ⟨m, hm, he⟩ := visited_iff_exists.1 he
    exact h m hm e he
  · intro h m hm e he
    exact h e (visited_iff_exists.2 ⟨m, hm, he⟩)

/-- Content is dynamic if anything is visited in it that is not a fixed text. -/
theorem isDynamic_iff_exists_visited {script : List Markup} :
    isDynamic script = true ↔ (∃ e : Element, Visited script e.markup) ∨
      ∃ s, Visited script (.text s) ∧ Marker.substitution.StandsIn s.toList := by
  rw [isDynamic, List.any_eq_true]
  constructor
  · rintro ⟨m, hm, h⟩
    cases m with
    | text s => exact .inr ⟨s, .top hm, Marker.occursIn_iff_standsIn.1 h⟩
    | element name attributes children => exact .inl ⟨⟨name, attributes, children⟩, .top hm⟩
  · rintro (⟨e, he⟩ | ⟨s, hs, hstands⟩)
    · obtain he | ⟨e', he'⟩ := he.mem_or_exists
      exacts [⟨_, he, rfl⟩, ⟨_, he', rfl⟩]
    · obtain hs | ⟨e, he⟩ := hs.mem_or_exists
      exacts [⟨_, hs, Marker.occursIn_iff_standsIn.2 hstands⟩, ⟨_, he, rfl⟩]

/-- **Templates.** Content has a template exactly if all elements that are visited in it are
proper. It is dynamic exactly if an element is visited or a text in which a substitution stands. -/
theorem compiled_iff_wellFormed (script : List Markup) :
    ((∃ t, ofContent script = .ok t) ↔ WellFormed script) ∧
    (isDynamic script = true ↔ (∃ e : Element, Visited script e.markup) ∨
      ∃ s, Visited script (.text s) ∧ Marker.substitution.StandsIn s.toList) :=
  ⟨exists_ofContent_iff, isDynamic_iff_exists_visited⟩

/-- In a choice a directive that is no branch is passed over whatever it lacks, but not a tag that
is unknown. -/
example :
    let choice (child : Element) := ofContent [.element "choose" [] [child.markup]]
    (choice { name := "bind" }).toBool = true ∧ (choice { name := "sql" }).toBool = false := by
  decide

end Template

end SqlTemplate
