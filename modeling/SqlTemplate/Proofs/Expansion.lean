import SqlTemplate.Catalog.Registration
import SqlTemplate.Proofs.Outcome

/-!
# Inclusion with more fragments

The expansion of a statement reads the fragments that its `include` elements refer to, and no
others. Where it succeeds, it gives the same while more fragments are known, as long as those known
before keep their content. So does the whole statement that is compiled from it.

## Main definitions

* `Draft.Extends` : a draft has the settings of another and knows all that the other knows.

## Main results

* `Inclusion.splice_eq`, `Inclusion.splice_eq_ok_iff` : the expansion of an `include` element, step
  by step.
* `Inclusion.expandAll_mono` : the expansion of content under a better expansion of `include`
  elements.
* `Inclusion.splice_mono` : the expansion of an `include` element with more fragments.
* `Inclusion.splice_congr` : its expansion with the same fragments, failures included.
* `Draft.Extends.prepare_eq` : the statement of an element with more fragments.
-/

namespace SqlTemplate

namespace Inclusion

section Content

variable {splice splice' : Element → Except Failure (List Markup)} {properties : Properties}
  {inFragment : Bool}

mutual

/-- Where an `include` element is replaced by something, another way to replace it does the same:
then a piece of content is expanded alike. -/
theorem expand_mono (h : ∀ e content, splice e = .ok content → splice' e = .ok content) :
    ∀ (m : Markup) {out : List Markup}, expand splice properties inFragment m = .ok out →
      expand splice' properties inFragment m = .ok out
  | .text s, out, hm => by
    rw [expand] at hm ⊢
    exact hm
  | .element name attributes children, out, hm => by
    rw [expand] at hm ⊢
    split at hm
    · rename_i hname
      rw [if_pos hname]
      exact h _ _ hm
    · rename_i hname
      rw [if_neg hname]
      obtain ⟨inner, hinner, hout⟩ := exists_of_bind_eq_ok hm
      rw [expandAll_mono h children hinner]
      exact hout

/-- The same for a list of content. -/
theorem expandAll_mono (h : ∀ e content, splice e = .ok content → splice' e = .ok content) :
    ∀ (content : List Markup) {out : List Markup},
      expandAll splice properties inFragment content = .ok out →
      expandAll splice' properties inFragment content = .ok out
  | [], out, hm => by
    rw [expandAll] at hm ⊢
    exact hm
  | m :: rest, out, hm => by
    rw [expandAll] at hm ⊢
    obtain ⟨first, hfirst, hm⟩ := exists_of_bind_eq_ok hm
    obtain ⟨others, hothers, hout⟩ := exists_of_bind_eq_ok hm
    rw [expand_mono h m hfirst]
    dsimp only [bind, Except.bind]
    rw [expandAll_mono h rest hothers]
    exact hout

end

end Content

variable {d d' : Draft}

/-! ### The steps of an expansion -/

/-- Of a fragment that is looked up and not open, what follows does not depend on how that is
known. -/
theorem opening_eq {α : Type} (d : Draft) (opened : List String) (id : String)
    (circular missing : α)
    {found : ∀ fragment, d.fragment? id = some fragment → ¬ opened.contains id = true → α}
    {found' : Element → α} (h : ∀ fragment hf ho, found fragment hf ho = found' fragment) :
    (if ho : opened.contains id = true then circular
      else match hf : d.fragment? id with
        | none => missing
        | some fragment => found fragment hf ho) =
      if id ∈ opened then circular
      else match d.fragment? id with
        | none => missing
        | some fragment => found' fragment := by
  by_cases hopen : id ∈ opened
  · rw [dif_pos (List.contains_iff_mem.2 hopen), if_pos hopen]
  · rw [dif_neg (mt List.contains_iff_mem.1 hopen), if_neg hopen]
    split
    · rename_i hnone
      rw [hnone]
    · rename_i fragment hfragment
      rw [h]
      simp only [hfragment]

/-- An `include` element is expanded in steps: its reference is read, the fragment is looked up, and
its content is expanded with one more fragment open. -/
theorem splice_eq (d : Draft) (space : String) (opened : List String) (properties : Properties)
    (e : Element) :
    splice d space opened properties e = e.required "refid" >>= fun raw =>
      if qualifyReference space (substitute properties raw) ∈ opened then
        .error (.circularInclude (qualifyReference space (substitute properties raw)))
      else match d.fragment? (qualifyReference space (substitute properties raw)) with
        | none => .error (.fragmentNotFound (substitute properties raw))
        | some fragment => within properties e >>= fun scope =>
          expandAll (splice d space (qualifyReference space (substitute properties raw) :: opened)
            scope) scope true fragment.children := by
  rw [splice]
  exact congrArg (Except.bind (e.required "refid")) (funext fun raw =>
    opening_eq d opened _ _ _ fun _ _ _ => rfl)

/-- An `include` element is replaced by something if its fragment is there and not open, its
properties can be read, and the content of the fragment is expanded. -/
theorem splice_eq_ok_iff {space : String} {opened : List String} {properties : Properties}
    {e : Element} {out : List Markup} :
    splice d space opened properties e = .ok out ↔ ∃ raw fragment scope,
      e.required "refid" = .ok raw ∧
      qualifyReference space (substitute properties raw) ∉ opened ∧
      d.fragment? (qualifyReference space (substitute properties raw)) = some fragment ∧
      within properties e = .ok scope ∧
      expandAll
        (splice d space (qualifyReference space (substitute properties raw) :: opened) scope)
        scope true fragment.children = .ok out := by
  rw [splice_eq]
  constructor
  · intro hout
    obtain ⟨raw, hraw, hout⟩ := exists_of_bind_eq_ok hout
    split at hout
    · cases hout
    rename_i hopen
    split at hout
    · cases hout
    rename_i fragment hfragment
    obtain ⟨scope, hscope, hout⟩ := exists_of_bind_eq_ok hout
    exact ⟨raw, fragment, scope, hraw, hopen, hfragment, hscope, hout⟩
  · rintro ⟨raw, fragment, scope, hraw, hopen, hfragment, hscope, hout⟩
    rw [hraw]
    dsimp only [bind, Except.bind]
    rw [if_neg hopen, hfragment]
    dsimp only
    rw [hscope]
    exact hout

/-- One more open fragment leaves fewer that are closed. -/
theorem closed_lt_of_not_mem {opened : List String} {id : String} {fragment : Element}
    (hfragment : d.fragment? id = some fragment) (hopen : id ∉ opened) :
    closed d (id :: opened) < closed d opened :=
  closed_lt hfragment (mt List.contains_iff_mem.1 hopen)

/-- An `include` element that is expanded is expanded alike while more fragments are known. -/
theorem splice_mono (h : ∀ id fragment, d.fragment? id = some fragment →
      d'.fragment? id = some fragment) (space : String) (opened : List String)
    (properties : Properties) (e : Element) {out : List Markup}
    (hout : splice d space opened properties e = .ok out) :
    splice d' space opened properties e = .ok out := by
  -- Each fragment that is opened leaves fewer to be opened.
  induction hclosed : closed d opened using Nat.strongRecOn
    generalizing opened properties e out with
  | ind n ih =>
    obtain ⟨raw, fragment, scope, hraw, hopen, hfragment, hscope, hout⟩ := splice_eq_ok_iff.1 hout
    have hlt := closed_lt_of_not_mem hfragment hopen
    exact splice_eq_ok_iff.2 ⟨raw, fragment, scope, hraw, hopen, h _ _ hfragment, hscope,
      expandAll_mono (fun inner content hcontent => ih _ (hclosed ▸ hlt) _ scope inner hcontent rfl)
        fragment.children hout⟩

theorem apply_mono (h : ∀ id fragment, d.fragment? id = some fragment →
      d'.fragment? id = some fragment) (space : String) {content out : List Markup}
    (hout : apply d space content = .ok out) : apply d' space content = .ok out :=
  expandAll_mono (fun e _ hcontent => splice_mono h space [] [] e hcontent) content hout

/-- Where two drafts look up the same fragments, an `include` element is expanded alike, and fails
alike. -/
theorem splice_congr (h : ∀ id, d'.fragment? id = d.fragment? id) (space : String)
    (opened : List String) (properties : Properties) (e : Element) :
    splice d' space opened properties e = splice d space opened properties e := by
  -- Each fragment that is opened leaves fewer to be opened.
  induction hclosed : closed d opened using Nat.strongRecOn
    generalizing opened properties e with
  | ind n ih =>
    rw [splice_eq, splice_eq]
    refine congrArg (Except.bind (e.required "refid")) (funext fun raw => ?_)
    by_cases hopen : qualifyReference space (substitute properties raw) ∈ opened
    · rw [if_pos hopen, if_pos hopen]
    rw [if_neg hopen, if_neg hopen, h]
    cases hfragment : d.fragment? (qualifyReference space (substitute properties raw)) with
    | none => rfl
    | some fragment =>
      refine congrArg (Except.bind (within properties e)) (funext fun scope => ?_)
      have hlt := closed_lt_of_not_mem hfragment hopen
      have hsplice := funext fun inner => ih _ (hclosed ▸ hlt) _ scope inner rfl
      exact congrArg (expandAll · scope true fragment.children) hsplice

theorem apply_congr (h : ∀ id, d'.fragment? id = d.fragment? id) (space : String)
    (content : List Markup) : apply d' space content = apply d space content := by
  rw [apply, apply, funext (splice_congr h space [] [])]

end Inclusion

namespace Draft

/-- A draft has the settings of another, and knows the fragments that the other knows. -/
structure Extends (d d' : Draft) : Prop where
  dialect : d'.dialect = d.dialect
  generatedKeys : d'.generatedKeys = d.generatedKeys
  engine : d'.engine = d.engine
  fragment? : ∀ id fragment, d.fragment? id = some fragment → d'.fragment? id = some fragment

open Registration in
/-- An element that comes to a statement comes to the same one while more fragments are known. -/
theorem Extends.prepare_eq {d d' : Draft} (h : d.Extends d') {space : String} {e : Element}
    {command : Command} {id : String} {s : Statement} (hs : prepare d space e command id = .ok s) :
    prepare d' space e command id = .ok s := by
  have hkey (dialect : Option String) (content : List Markup) (hint : Option String) :
      keyStatement? d'.toCatalog id dialect content hint =
        keyStatement? d.toCatalog id dialect content hint := by
    rw [keyStatement?, keyStatement?, h.dialect, h.engine]
  have hgenerator (key : Option (Definition × Bool)) :
      generator d'.toCatalog command e key = generator d.toCatalog command e key := by
    cases key with
    | none => rw [generator, generator, plainGenerator, plainGenerator, h.generatedKeys]
    | some pair => rfl
  rw [prepare] at hs ⊢
  obtain ⟨content, hcontent, hs⟩ := exists_of_bind_eq_ok hs
  rw [Inclusion.apply_mono h.fragment? space hcontent]
  simp only [hkey, hgenerator, h.engine]
  exact hs

end Draft

end SqlTemplate
