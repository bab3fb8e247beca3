import Mathlib
import SqlTemplate.Proofs.Expansion
import SqlTemplate.Proofs.MarkupWriting
import SqlTemplate.Proofs.VariantMaps

/-!
# The graph of inclusions

Each `include` element leads to those in the fragment that it refers to. The expansion of a
statement follows these edges depth first, with the ids of the fragments that it is inside of on a
stack. It ends, since no fragment is opened inside itself, and it succeeds exactly where every
element that is reached refers to a fragment, and no path returns to a fragment.

## Main definitions

* `Inclusion.includesAll` : the `include` elements of a content, at any depth.
* `Inclusion.Enters` : the bodies that an expansion comes to, inside the fragments that are open.
* `Inclusion.LeadsTo`, `Inclusion.Reaches` : the edges between `include` elements, and what is
  reached along them.
* `Inclusion.IsExpanded` : no `include` element is left, and no two texts meet.

## Main results

* `Inclusion.Enters.length_le` : the depth of an expansion is at most the number of fragments.
* `Inclusion.exists_splice_iff` : the depth-first search succeeds where what it would find is sound.
* `Inclusion.apply_iff_complete_acyclic` : all this of a statement.
-/

namespace SqlTemplate

namespace Inclusion

open Markup

/-! ### Include elements -/

mutual

/-- The `include` elements of a piece of content, at any depth of other elements. What is inside an
`include` element is not content. -/
def includes : Markup → List Element
  | .text _ => []
  | .element name attributes children =>
    if name = "include" then [{ name, attributes, children }] else includesAll children

/-- The `include` elements of a list of content. -/
def includesAll : List Markup → List Element
  | [] => []
  | m :: rest => includes m ++ includesAll rest

end

section Content

variable {splice splice' : Element → Except Failure (List Markup)} {properties : Properties}
  {inFragment : Bool}

mutual

/-- A piece of content is expanded if its `include` elements are. -/
theorem exists_expand_iff : ∀ m : Markup, (∃ out, expand splice properties inFragment m = .ok out) ↔
    ∀ e ∈ includes m, ∃ out, splice e = .ok out
  | .text s => by simp [expand, includes]
  | .element name attributes children => by
    rw [expand, includes]
    split
    · simp
    · rw [← exists_expandAll_iff children]
      constructor
      · rintro ⟨out, hout⟩
        obtain ⟨inner, hinner, -⟩ := exists_of_bind_eq_ok hout
        exact ⟨inner, hinner⟩
      · rintro ⟨inner, hinner⟩
        rw [hinner]
        exact ⟨_, rfl⟩

/-- A list of content is expanded if its `include` elements are. -/
theorem exists_expandAll_iff : ∀ content : List Markup,
    (∃ out, expandAll splice properties inFragment content = .ok out) ↔
      ∀ e ∈ includesAll content, ∃ out, splice e = .ok out
  | [] => by simp [expandAll, includesAll]
  | m :: rest => by
    rw [includesAll, List.forall_mem_append, ← exists_expand_iff m, ← exists_expandAll_iff rest,
      expandAll]
    constructor
    · rintro ⟨out, hout⟩
      obtain ⟨first, hfirst, hout⟩ := exists_of_bind_eq_ok hout
      obtain ⟨others, hothers, -⟩ := exists_of_bind_eq_ok hout
      exact ⟨⟨first, hfirst⟩, others, hothers⟩
    · rintro ⟨⟨first, hfirst⟩, others, hothers⟩
      rw [hfirst, hothers]
      exact ⟨_, rfl⟩

end

/-! ### Expanded content -/

theorem includesAll_cons (m : Markup) (content : List Markup) :
    includesAll (cons m content) = includes m ++ includesAll content := by
  unfold cons
  split
  · simp [includesAll, includes]
  · rw [includesAll]

theorem areMerged_cons {m : Markup} {content : List Markup} (hm : IsMerged m)
    (hcontent : AreMerged content) : AreMerged (cons m content) := by
  unfold cons
  split
  · rw [AreMerged] at hcontent ⊢
    exact ⟨trivial, hcontent.2⟩
  · rename_i hmeet
    refine ⟨hm, hcontent, ?_⟩
    cases m with
    | element name attributes children => rfl
    | text s =>
      cases content with
      | nil => rfl
      | cons other rest =>
        cases other with
        | text t => exact absurd rfl (hmeet s t rest rfl)
        | element name attributes children => rfl

theorem includesAll_append (first second : List Markup) :
    includesAll (append first second) = includesAll first ++ includesAll second := by
  induction first with
  | nil => rfl
  | cons m rest ih =>
    change includesAll (cons m (append rest second)) = _
    rw [includesAll_cons, ih, includesAll, List.append_assoc]

theorem areMerged_append {first second : List Markup} (hfirst : AreMerged first)
    (hsecond : AreMerged second) : AreMerged (append first second) := by
  induction first with
  | nil => exact hsecond
  | cons m rest ih =>
    rw [AreMerged] at hfirst
    exact areMerged_cons hfirst.1 (ih hfirst.2.1)

/-- Content without `include` elements at any depth, in which no two texts meet. -/
def IsExpanded (content : List Markup) : Prop :=
  includesAll content = [] ∧ AreMerged content

mutual

theorem isExpanded_expand (h : ∀ e out, splice e = .ok out → IsExpanded out) :
    ∀ (m : Markup) {out : List Markup}, expand splice properties inFragment m = .ok out →
      IsExpanded out
  | .text s, out, hm => by
    rw [expand] at hm
    obtain rfl := Except.ok.inj hm
    exact ⟨rfl, trivial, trivial, rfl⟩
  | .element name attributes children, out, hm => by
    rw [expand] at hm
    split at hm
    · exact h _ _ hm
    · rename_i hname
      obtain ⟨inner, hinner, hout⟩ := exists_of_bind_eq_ok hm
      obtain rfl := Except.ok.inj hout
      obtain ⟨hnone, hmerged⟩ := isExpanded_expandAll h children hinner
      refine ⟨?_, hmerged, trivial, rfl⟩
      rw [includesAll, includes, if_neg hname, hnone]
      rfl

/-- What replaces the `include` elements is expanded; then so is the whole. -/
theorem isExpanded_expandAll (h : ∀ e out, splice e = .ok out → IsExpanded out) :
    ∀ (content : List Markup) {out : List Markup},
      expandAll splice properties inFragment content = .ok out → IsExpanded out
  | [], out, hm => by
    rw [expandAll] at hm
    obtain rfl := Except.ok.inj hm
    exact ⟨rfl, trivial⟩
  | m :: rest, out, hm => by
    rw [expandAll] at hm
    obtain ⟨first, hfirst, hm⟩ := exists_of_bind_eq_ok hm
    obtain ⟨others, hothers, hout⟩ := exists_of_bind_eq_ok hm
    obtain rfl := Except.ok.inj hout
    obtain ⟨hnone, hmerged⟩ := isExpanded_expand h m hfirst
    obtain ⟨hnone', hmerged'⟩ := isExpanded_expandAll h rest hothers
    exact ⟨by rw [includesAll_append, hnone, hnone']; rfl, areMerged_append hmerged hmerged'⟩

end

end Content

variable {d : Draft} {space : String}

theorem isExpanded_splice (opened : List String) (properties : Properties) (e : Element)
    {out : List Markup} (hout : splice d space opened properties e = .ok out) :
    IsExpanded out := by
  induction hclosed : closed d opened using Nat.strongRecOn
    generalizing opened properties e out with
  | ind n ih =>
    obtain ⟨raw, fragment, scope, -, hopen, hfragment, -, hout⟩ := splice_eq_ok_iff.1 hout
    have hlt := closed_lt_of_not_mem hfragment hopen
    exact isExpanded_expandAll
      (fun inner content hcontent => ih _ (hclosed ▸ hlt) _ scope inner hcontent rfl) _ hout

/-! ### The depth of an expansion -/

/-- The expansion of a content comes to a body, inside the fragments that are open and with the
properties that are in effect there. -/
inductive Enters (d : Draft) (space : String) (content : List Markup) :
    List String → Properties → List Markup → Prop
  /-- It begins with the content itself. -/
  | start : Enters d space content [] [] content
  /-- From each `include` element in a body it goes on to the body of a fragment. -/
  | enter {opened : List String} {properties scope : Properties} {body : List Markup}
      {e fragment : Element} {raw : String} (hbody : Enters d space content opened properties body)
      (he : e ∈ includesAll body) (hraw : e.required "refid" = .ok raw)
      (hopen : qualifyReference space (substitute properties raw) ∉ opened)
      (hfragment : d.fragment? (qualifyReference space (substitute properties raw)) = some fragment)
      (hscope : within properties e = .ok scope) :
      Enters d space content (qualifyReference space (substitute properties raw) :: opened) scope
        fragment.children

theorem mem_keys_of_fragment? {id : String} {fragment : Element}
    (h : d.fragment? id = some fragment) : id ∈ d.fragments.keys := by
  obtain ⟨v, hv, -⟩ := Option.bind_eq_some_iff.1 h
  exact List.mem_map.2 ⟨(id, v), Entries.mem_of_find? hv, rfl⟩

/-- The fragments that are open are different ones of the draft. -/
theorem Enters.subperm {content body : List Markup} {opened : List String} {properties : Properties}
    (h : Enters d space content opened properties body) :
    opened.Nodup ∧ opened ⊆ d.fragments.keys := by
  induction h with
  | start => exact ⟨List.nodup_nil, List.nil_subset _⟩
  | enter hbody he hraw hopen hfragment hscope ih =>
    exact ⟨List.nodup_cons.2 ⟨hopen, ih.1⟩,
      List.cons_subset.2 ⟨mem_keys_of_fragment? hfragment, ih.2⟩⟩

/-- No more fragments are open inside one another than there are. -/
theorem Enters.length_le {content body : List Markup} {opened : List String}
    {properties : Properties} (h : Enters d space content opened properties body) :
    opened.length ≤ d.fragments.length := by
  obtain ⟨hnodup, hsubset⟩ := h.subperm
  have hle := (List.subperm_of_subset hnodup hsubset).length_le
  rwa [Entries.keys, List.length_map] at hle

/-! ### Definite references -/

/-- An `include` element whose reference is written out, and whose properties have names and
values. -/
structure IsDefinite (e : Element) : Prop where
  reference : ∃ raw, e.attribute? "refid" = some raw ∧ Marker.substitution.occursIn raw = false
  properties : ∀ p ∈ e.elements, p.name = "property" →
    (p.attribute? "name").isSome = true ∧ (p.attribute? "value").isSome = true

/-- The id of the fragment that an `include` element of a statement of a namespace refers to. -/
def target (space : String) (e : Element) : String :=
  qualifyReference space ((e.attribute? "refid").getD "")

/-- An `include` element leads to those in the fragment that it refers to. -/
def LeadsTo (d : Draft) (space : String) (e e' : Element) : Prop :=
  ∃ fragment, d.fragment? (target space e) = some fragment ∧ e' ∈ includesAll fragment.children

/-- An `include` element is in some content, or a chain of such elements leads to it from there. -/
def Reaches (d : Draft) (space : String) (content : List Markup) (e : Element) : Prop :=
  ∃ first ∈ includesAll content, Relation.ReflTransGen (LeadsTo d space) first e

theorem required_eq {e : Element} {name value : String} (h : e.attribute? name = some value) :
    e.required name = .ok value := by
  rw [Element.required, h]

theorem substitute_eq_self {text : String} (properties : Properties)
    (h : Marker.substitution.occursIn text = false) : substitute properties text = text := by
  rw [substitute, h]
  simp

theorem IsDefinite.required {e : Element} (h : IsDefinite e) (space : String)
    (properties : Properties) : ∃ raw, e.required "refid" = .ok raw ∧
      qualifyReference space (substitute properties raw) = target space e := by
  obtain ⟨raw, hraw, hplain⟩ := h.reference
  exact ⟨raw, required_eq hraw, by rw [substitute_eq_self properties hplain, target, hraw]; rfl⟩

theorem IsDefinite.exists_within {e : Element} (h : IsDefinite e) (properties : Properties) :
    ∃ scope, within properties e = .ok scope := by
  have hall : ∀ p ∈ e.elements.filter (·.name = "property"),
      (p.attribute? "name").isSome = true ∧ (p.attribute? "value").isSome = true := by
    intro p hp
    obtain ⟨hp, hname⟩ := List.mem_filter.1 hp
    exact h.properties p hp (by simpa using hname)
  rw [within]
  generalize e.elements.filter (·.name = "property") = l at hall
  -- The properties are read in the scope around the element; those read before make no difference.
  suffices hfold : ∀ scope : Properties, ∃ out, l.foldlM (fun scope p => do
      let name ← p.required "name"
      let value ← p.required "value"
      return scope.insert name (substitute properties value)) scope = Except.ok out from
    hfold properties
  induction l with
  | nil => exact fun scope => ⟨scope, rfl⟩
  | cons p rest ih =>
    intro scope
    obtain ⟨hname, hvalue⟩ := hall p List.mem_cons_self
    obtain ⟨name, hname⟩ := Option.isSome_iff_exists.1 hname
    obtain ⟨value, hvalue⟩ := Option.isSome_iff_exists.1 hvalue
    rw [List.foldlM_cons, required_eq hname, required_eq hvalue]
    exact ih (fun q hq => hall q (List.mem_cons_of_mem _ hq)) _

/-- A definite `include` element is expanded if its fragment is there and not open, and each
`include` element in the fragment is expanded. -/
theorem IsDefinite.exists_splice_iff {e : Element} (h : IsDefinite e) {opened : List String}
    {properties : Properties} :
    (∃ out, splice d space opened properties e = .ok out) ↔
      target space e ∉ opened ∧ ∃ fragment scope, d.fragment? (target space e) = some fragment ∧
        within properties e = .ok scope ∧
        ∀ e' ∈ includesAll fragment.children,
          ∃ out, splice d space (target space e :: opened) scope e' = .ok out := by
  obtain ⟨raw, hraw, htarget⟩ := h.required space properties
  constructor
  · rintro ⟨out, hout⟩
    obtain ⟨raw', fragment, scope, hraw', hopen, hfragment, hscope, hout⟩ := splice_eq_ok_iff.1 hout
    obtain rfl : raw = raw' := Except.ok.inj (hraw.symm.trans hraw')
    rw [htarget] at hopen hfragment hout
    exact ⟨hopen, fragment, scope, hfragment, hscope,
      (exists_expandAll_iff fragment.children).1 ⟨out, hout⟩⟩
  · rintro ⟨hopen, fragment, scope, hfragment, hscope, hinner⟩
    rw [← htarget] at hopen hfragment hinner
    obtain ⟨out, hout⟩ := (exists_expandAll_iff fragment.children).2 hinner
    exact ⟨out, splice_eq_ok_iff.2 ⟨raw, fragment, scope, hraw, hopen, hfragment, hscope, hout⟩⟩

/-- Each `include` element that is reached refers to a fragment, and none leads on to another that
refers to the same fragment again. -/
def IsResolved (d : Draft) (space : String) (opened : List String) (e : Element) : Prop :=
  (d.fragment? (target space e)).isSome = true ∧ target space e ∉ opened ∧
    ∀ e', Relation.TransGen (LeadsTo d space) e e' → target space e' ≠ target space e

theorem exists_splice_iff {e : Element}
    (hdefinite : ∀ e', Relation.ReflTransGen (LeadsTo d space) e e' → IsDefinite e')
    (opened : List String) (properties : Properties) :
    (∃ out, splice d space opened properties e = .ok out) ↔
      ∀ e', Relation.ReflTransGen (LeadsTo d space) e e' → IsResolved d space opened e' := by
  induction hclosed : closed d opened using Nat.strongRecOn generalizing opened properties e with
  | ind n ih =>
    rw [(hdefinite e .refl).exists_splice_iff]
    constructor
    · rintro ⟨hopen, fragment, scope, hfragment, -, hinner⟩
      have hlt := closed_lt_of_not_mem hfragment hopen
      have hbelow {f e' : Element} (hf : f ∈ includesAll fragment.children)
          (hlead : Relation.ReflTransGen (LeadsTo d space) f e') :
          IsResolved d space (target space e :: opened) e' :=
        (ih _ (hclosed ▸ hlt) (fun e'' h => hdefinite e'' (.head ⟨fragment, hfragment, hf⟩ h))
          _ scope rfl).1 (hinner f hf) e' hlead
      have hinside {f : Element} (hf : LeadsTo d space e f) :
          f ∈ includesAll fragment.children := by
        obtain ⟨fragment', hfragment', hf⟩ := hf
        obtain rfl : fragment = fragment' := Option.some.inj (hfragment.symm.trans hfragment')
        exact hf
      intro e' hlead
      rcases hlead.cases_head with rfl | ⟨f, hf, hlead⟩
      · refine ⟨by rw [hfragment]; rfl, hopen, fun e' hreturn heq => ?_⟩
        obtain ⟨f, hf, hlead⟩ := Relation.TransGen.head'_iff.1 hreturn
        exact (hbelow (hinside hf) hlead).2.1 (heq ▸ List.mem_cons_self)
      · obtain ⟨hsome, hopen', hcycle⟩ := hbelow (hinside hf) hlead
        exact ⟨hsome, fun h => hopen' (List.mem_cons_of_mem _ h), hcycle⟩
    · intro hresolved
      obtain ⟨hsome, hopen, hcycle⟩ := hresolved e .refl
      obtain ⟨fragment, hfragment⟩ := Option.isSome_iff_exists.1 hsome
      obtain ⟨scope, hscope⟩ := (hdefinite e .refl).exists_within properties
      have hlt := closed_lt_of_not_mem hfragment hopen
      refine ⟨hopen, fragment, scope, hfragment, hscope, fun f hf => ?_⟩
      have hstep : LeadsTo d space e f := ⟨fragment, hfragment, hf⟩
      refine (ih _ (hclosed ▸ hlt) (fun e'' h => hdefinite e'' (.head hstep h)) _ scope rfl).2
        fun e' hlead => ?_
      obtain ⟨hsome', hopen', hcycle'⟩ := hresolved e' (.head hstep hlead)
      refine ⟨hsome', fun hmem => ?_, hcycle'⟩
      rcases List.mem_cons.1 hmem with heq | hmem
      · exact hcycle e' (.head' hstep hlead) heq
      · exact hopen' hmem

/-! ### Statements -/

/-- The expansion of a statement ends: it never is inside more fragments than there are, whatever
includes what. Where it succeeds, no `include` element is left and no two texts meet, at any depth.

Let every `include` element that is reached have its reference written out, and names and values for
its properties. Then the expansion succeeds if and only if every one of them refers to a fragment,
and none of them leads back to the fragment that it refers to. A fragment that is reached on two
ways is none that is returned to. -/
theorem apply_iff_complete_acyclic (d : Draft) (space : String) (content : List Markup) :
    (∀ opened properties body, Enters d space content opened properties body →
      opened.length ≤ d.fragments.length) ∧
    (∀ out, apply d space content = .ok out → IsExpanded out) ∧
    ((∀ e, Reaches d space content e → IsDefinite e) →
      ((∃ out, apply d space content = .ok out) ↔
        (∀ e, Reaches d space content e → (d.fragment? (target space e)).isSome = true) ∧
        ∀ e e', Reaches d space content e → Relation.TransGen (LeadsTo d space) e e' →
          target space e' ≠ target space e)) := by
  refine ⟨fun opened properties body h => h.length_le, fun out hout =>
    isExpanded_expandAll (fun e _ h => isExpanded_splice [] [] e h) content hout,
    fun hdefinite => ?_⟩
  rw [apply, exists_expandAll_iff]
  have hfirst (e : Element) (he : e ∈ includesAll content) :
      (∃ out, splice d space [] [] e = .ok out) ↔
        ∀ e', Relation.ReflTransGen (LeadsTo d space) e e' → IsResolved d space [] e' :=
    exists_splice_iff (fun e' h => hdefinite e' ⟨e, he, h⟩) [] []
  constructor
  · intro hspliced
    have hresolved {e : Element} : Reaches d space content e → IsResolved d space [] e := by
      rintro ⟨first, he, hlead⟩
      exact (hfirst first he).1 (hspliced first he) e hlead
    exact ⟨fun e he => (hresolved he).1, fun e e' he => (hresolved he).2.2 e'⟩
  · rintro ⟨hsome, hcycle⟩ first he
    exact (hfirst first he).2 fun e hlead =>
      ⟨hsome e ⟨first, he, hlead⟩, List.not_mem_nil, fun e' => hcycle e e' ⟨first, he, hlead⟩⟩

/-- What is reached is in a list that has the `include` elements of the content, and with each of
its members those that it leads to. -/
theorem Reaches.mem_of_closed {content : List Markup} {l : List Element}
    (hfirst : ∀ e ∈ includesAll content, e ∈ l)
    (hstep : ∀ e ∈ l, ∀ e', LeadsTo d space e e' → e' ∈ l) {e : Element}
    (h : Reaches d space content e) : e ∈ l := by
  obtain ⟨first, he, hlead⟩ := h
  induction hlead with
  | refl => exact hfirst first he
  | tail _ hlast ih => exact hstep _ ih _ hlast

namespace sharing

/-- An `include` element without properties. -/
def including (reference : String) : Element where
  name := "include"
  attributes := [("refid", reference)]

/-- Two fragments that include a third, and the third. -/
def draft : Draft where
  fragments := [
    ("ns.a", { fallback := some ⟨"sql", [], [.text "a", (including "c").markup]⟩ }),
    ("ns.b", { fallback := some ⟨"sql", [], [(including "c").markup, .text "b"]⟩ }),
    ("ns.c", { fallback := some ⟨"sql", [], [.text "c"]⟩ })]

/-- A statement that includes the first, and in a guard the second. -/
def content : List Markup :=
  [.text "s", (including "a").markup, .element "if" [("test", "x")] [(including "ns.b").markup]]

theorem apply_eq : apply draft "ns" content =
    .ok [.text "sac", .element "if" [("test", "x")] [.text "cb"]] := by
  cbv

theorem fragment?_eq :
    draft.fragment? (target "ns" (including "a")) =
      some ⟨"sql", [], [.text "a", (including "c").markup]⟩ ∧
    draft.fragment? (target "ns" (including "ns.b")) =
      some ⟨"sql", [], [(including "c").markup, .text "b"]⟩ ∧
    draft.fragment? (target "ns" (including "c")) = some ⟨"sql", [], [.text "c"]⟩ := by
  refine ⟨?_, ?_, ?_⟩ <;> cbv

theorem mem_of_reaches {e : Element} (h : Reaches draft "ns" content e) :
    e ∈ [including "a", including "ns.b", including "c"] := by
  obtain ⟨ha, hb, hc⟩ := fragment?_eq
  refine h.mem_of_closed (fun e he => ?_) fun e he e' hlead => ?_
  · rcases List.mem_pair.1 he with rfl | rfl <;> simp [including]
  · obtain ⟨fragment, hfragment, he'⟩ := hlead
    simp only [List.mem_cons, List.not_mem_nil, or_false] at he
    rcases he with rfl | rfl | rfl
    · obtain rfl := Option.some.inj (ha.symm.trans hfragment)
      rw [List.mem_singleton.1 he']
      simp [including]
    · obtain rfl := Option.some.inj (hb.symm.trans hfragment)
      rw [List.mem_singleton.1 he']
      simp [including]
    · obtain rfl := Option.some.inj (hc.symm.trans hfragment)
      cases he'

theorem isDefinite_of_reaches {e : Element} (h : Reaches draft "ns" content e) : IsDefinite e := by
  have he := mem_of_reaches h
  simp only [List.mem_cons, List.not_mem_nil, or_false] at he
  have hproperties (reference : String) :
      ∀ p ∈ (including reference).elements, p.name = "property" →
      (p.attribute? "name").isSome = true ∧ (p.attribute? "value").isSome = true :=
    fun p hp => nomatch hp
  rcases he with rfl | rfl | rfl
  · exact ⟨⟨"a", rfl, by cbv⟩, hproperties _⟩
  · exact ⟨⟨"ns.b", rfl, by cbv⟩, hproperties _⟩
  · exact ⟨⟨"c", rfl, by cbv⟩, hproperties _⟩

end sharing

open sharing in
/-- Two fragments share a third: the expansion succeeds, and so there is no way back. -/
theorem apply_iff_complete_acyclic_sharing :
    (∀ e, Reaches draft "ns" content e → IsDefinite e) ∧
      Reaches draft "ns" content (including "c") ∧
      (∀ e', Relation.TransGen (LeadsTo draft "ns") (including "c") e' →
        target "ns" e' ≠ target "ns" (including "c")) ∧
      IsExpanded [.text "sac", .element "if" [("test", "x")] [.text "cb"]] ∧
      ∀ opened properties body, Enters draft "ns" content opened properties body →
        opened.length ≤ 3 := by
  obtain ⟨hdepth, hexpanded, hiff⟩ := apply_iff_complete_acyclic draft "ns" content
  obtain ⟨-, hcycle⟩ := (hiff fun e => isDefinite_of_reaches).1 ⟨_, apply_eq⟩
  have hreaches : Reaches draft "ns" content (including "c") := by
    refine ⟨including "a", List.mem_cons_self, .single ⟨_, fragment?_eq.1, ?_⟩⟩
    exact List.mem_cons_self
  exact ⟨fun e => isDefinite_of_reaches, hreaches, fun e' => hcycle _ e' hreaches,
    hexpanded _ apply_eq, hdepth⟩

end Inclusion

end SqlTemplate
