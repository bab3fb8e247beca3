import SqlTemplate.Template.Iteration

/-!
# The nodes of a template

The nodes of a template are the template itself and the nodes of its parts. The names that a
template binds stand at two kinds of node: a binding has one, a loop may have an item and an index.

## Main definitions

* `Template.nodes` : the nodes of a template, from the top down.
* `Template.Within` : the nodes of one template are nodes of another.
* `Template.BindsName`, `Template.LoopsOver` : the names that bindings and loops of a template have.

## Main results

* `Template.induction` : induction on templates, with a hypothesis for each part of a list.
* `Template.within_sequence_rest`, `Template.within_choice_rest` : what is left of a list is within
  the list.
-/

namespace SqlTemplate.Template

/-! ### Induction -/

/-- Induction on templates. In a sequence and in a choice there is a hypothesis for each part. -/
theorem induction {motive : Template → Prop}
    (fixed : ∀ s, motive (.fixed s))
    (text : ∀ s, motive (.text s))
    (sequence : ∀ parts, (∀ p ∈ parts, motive p) → motive (.sequence parts))
    (guarded : ∀ test body, motive body → motive (.guarded test body))
    (choice : ∀ branches fallback, (∀ b ∈ branches, motive b.2) →
      (∀ f, fallback = some f → motive f) → motive (.choice branches fallback))
    (loop : ∀ attributes body, motive body → motive (.loop attributes body))
    (trimmed : ∀ affixes body, motive body → motive (.trimmed affixes body))
    (bind : ∀ name expression, motive (.bind name expression)) :
    ∀ t, motive t := by
  intro t
  refine @Template.rec motive (fun parts => ∀ p ∈ parts, motive p)
    (fun branches => ∀ b ∈ branches, motive b.2)
    (fun fallback => ∀ f, fallback = some f → motive f)
    (fun branch => motive branch.2)
    fixed text sequence guarded choice loop trimmed bind ?_ ?_ ?_ ?_ ?_ ?_ ?_ t
  · intro p hp
    cases hp
  · intro first rest hfirst hrest p hp
    rcases List.mem_cons.1 hp with rfl | hp
    · exact hfirst
    · exact hrest p hp
  · intro b hb
    cases hb
  · intro first rest hfirst hrest b hb
    rcases List.mem_cons.1 hb with rfl | hb
    · exact hfirst
    · exact hrest b hb
  · intro f hf
    cases hf
  · intro body hbody f hf
    rwa [← Option.some.inj hf]
  · intro test body hbody
    exact hbody

/-! ### Nodes -/

mutual

/-- The nodes of a template, itself first. -/
def nodes : Template → List Template
  | .fixed s => [.fixed s]
  | .text s => [.text s]
  | .sequence parts => .sequence parts :: nodesAll parts
  | .guarded test body => .guarded test body :: nodes body
  | .choice branches fallback =>
    .choice branches fallback :: (nodesBranches branches ++ nodesFallback fallback)
  | .loop attributes body => .loop attributes body :: nodes body
  | .trimmed affixes body => .trimmed affixes body :: nodes body
  | .bind name expression => [.bind name expression]

/-- The nodes of a list of templates. -/
def nodesAll : List Template → List Template
  | [] => []
  | part :: rest => nodes part ++ nodesAll rest

/-- The nodes of the branches of a choice. -/
def nodesBranches : List (String × Template) → List Template
  | [] => []
  | (_, body) :: rest => nodes body ++ nodesBranches rest

/-- The nodes of the body without a test, if there is one. -/
def nodesFallback : Option Template → List Template
  | some body => nodes body
  | none => []

end

theorem mem_nodesAll {t : Template} {parts : List Template} :
    t ∈ nodesAll parts ↔ ∃ p ∈ parts, t ∈ p.nodes := by
  induction parts with
  | nil => simp [nodesAll]
  | cons part rest ih => simp [nodesAll, ih]

theorem self_mem_nodes (t : Template) : t ∈ t.nodes := by
  cases t <;> simp [nodes]

/-! ### Parts -/

/-- Sequences and choices are no more than lists of their parts. -/
def isList : Template → Bool
  | .sequence _ | .choice .. => true
  | _ => false

/-- The nodes of a part are nodes of the whole, but for lists: the rest of a list is a part, and is
itself no node. -/
def Within (part t : Template) : Prop :=
  ∀ p ∈ part.nodes, p.isList = true ∨ p ∈ t.nodes

theorem Within.mem {part t p : Template} (h : part.Within t) (hp : p ∈ part.nodes)
    (hlist : p.isList = false) : p ∈ t.nodes :=
  (h p hp).resolve_left (by simp [hlist])

theorem Within.refl (t : Template) : t.Within t :=
  fun _ hp => Or.inr hp

theorem within_sequence {p : Template} {parts : List Template} (hp : p ∈ parts) :
    p.Within (.sequence parts) :=
  fun _ hq => Or.inr (List.mem_cons_of_mem _ (mem_nodesAll.2 ⟨p, hp, hq⟩))

theorem within_sequence_rest (part : Template) (rest : List Template) :
    (Template.sequence rest).Within (.sequence (part :: rest)) := by
  intro q hq
  rcases List.mem_cons.1 hq with rfl | hq
  · exact Or.inl rfl
  · exact Or.inr (List.mem_cons_of_mem _ (List.mem_append_right _ hq))

theorem within_guarded (test : String) (body : Template) : body.Within (.guarded test body) :=
  fun _ hq => Or.inr (List.mem_cons_of_mem _ hq)

theorem within_branch (test : String) (body : Template) (rest : List (String × Template))
    (fallback : Option Template) : body.Within (.choice ((test, body) :: rest) fallback) := by
  intro q hq
  exact Or.inr (List.mem_cons_of_mem _ (List.mem_append_left _ (List.mem_append_left _ hq)))

theorem within_choice_rest (branch : String × Template) (rest : List (String × Template))
    (fallback : Option Template) :
    (Template.choice rest fallback).Within (.choice (branch :: rest) fallback) := by
  intro q hq
  obtain ⟨test, body⟩ := branch
  rcases List.mem_cons.1 hq with rfl | hq
  · exact Or.inl rfl
  · refine Or.inr (List.mem_cons_of_mem _ ?_)
    rw [nodesBranches, List.append_assoc]
    exact List.mem_append_right _ hq

theorem within_fallback (body : Template) : body.Within (.choice [] (some body)) :=
  fun _ hq => Or.inr (List.mem_cons_of_mem _ hq)

theorem within_loop (attributes : Loop) (body : Template) : body.Within (.loop attributes body) :=
  fun _ hq => Or.inr (List.mem_cons_of_mem _ hq)

theorem within_trimmed (affixes : Affixes) (body : Template) :
    body.Within (.trimmed affixes body) :=
  fun _ hq => Or.inr (List.mem_cons_of_mem _ hq)

/-! ### Names -/

/-- Some binding of the template is for the name. -/
def BindsName (t : Template) (name : String) : Prop :=
  ∃ expression, Template.bind name expression ∈ t.nodes

/-- Some loop of the template has the name as its item or as its index. -/
def LoopsOver (t : Template) (name : String) : Prop :=
  ∃ attributes body, Template.loop attributes body ∈ t.nodes ∧ name ∈ attributes.names

variable {part t : Template} {name : String}

theorem BindsName.mono (h : part.BindsName name) (hw : part.Within t) : t.BindsName name := by
  obtain ⟨expression, hb⟩ := h
  exact ⟨expression, hw.mem hb rfl⟩

theorem LoopsOver.mono (h : part.LoopsOver name) (hw : part.Within t) : t.LoopsOver name := by
  obtain ⟨attributes, body, hl, hn⟩ := h
  exact ⟨attributes, body, hw.mem hl rfl, hn⟩

end SqlTemplate.Template
