import SqlTemplate.Proofs.DocumentLoading
import SqlTemplate.Proofs.Expansion
import SqlTemplate.Proofs.ReadTrees

/-!
# Elements for foreign dialects

A fragment or a statement that is declared for a dialect is foreign where another dialect is active.
Documents that load and build do so without their foreign elements, statement for statement: the
same number is registered from each document, and the catalog in the end is the same.

Two runs of the loader are compared, one over the documents as they are and one over those without
the foreign elements. A foreign fragment leaves an entry without variants behind, so the drafts of
the two runs are not equal; they are alike (`Draft.Alike`), and whatever reads a draft reads the
same from drafts that are alike.

## Main definitions

* `Element.IsForeign` : an element that is passed over for its dialect.
* `Document.WithoutForeign` : a document is another one without its foreign elements.
* `Draft.Alike` : two drafts of the same statements, with the same variants of fragments.
* `Loading.Uniform`, `Loading.Carries` : a step of loading does the same to drafts that are alike;
  its successes carry over to another step.

## Main results

* `Loading.uniform_register` : a statement element is registered alike, or fails alike.
* `Loading.carries_document` : the load of a document without its foreign elements.
* `Draft.configure_without_foreign` : the catalog without foreign elements is the same.
-/

namespace SqlTemplate

/-! ### Documents without foreign elements -/

/-- A fragment or a statement whose dialect does not apply. -/
def Element.IsForeign (active : Option String) (e : Element) : Prop :=
  ¬ Applies active (e.attribute? "databaseId") ∧
    (e.name = "sql" ∨ (Command.ofTag? e.name).isSome = true)

instance (active : Option String) (e : Element) : Decidable (e.IsForeign active) :=
  inferInstanceAs (Decidable (_ ∧ _))

/-- The elements that are not foreign. -/
def Element.native (active : Option String) (elements : List Element) : List Element :=
  elements.filter fun e => ¬ e.IsForeign active

theorem Element.native_cons_of_isForeign {active : Option String} {e : Element}
    (h : e.IsForeign active) (rest : List Element) :
    native active (e :: rest) = native active rest :=
  List.filter_cons_of_neg (by simpa using h)

theorem Element.native_cons_of_not_isForeign {active : Option String} {e : Element}
    (h : ¬ e.IsForeign active) (rest : List Element) :
    native active (e :: rest) = e :: native active rest :=
  List.filter_cons_of_pos (by simpa using h)

/-- A document is another one without its foreign elements. -/
def Document.WithoutForeign (active : Option String) (doc doc' : Document) : Prop :=
  doc'.resource = doc.resource ∧ ∃ root root' : Element,
    Markup.parseDocument doc.source = .ok root ∧ Markup.parseDocument doc'.source = .ok root' ∧
      root'.name = root.name ∧ root'.attributes = root.attributes ∧
      root'.elements = Element.native active root.elements

theorem Markup.AreTrees.isTree {l : List Markup} (h : AreTrees l) : ∀ m ∈ l, IsTree m := by
  induction l with
  | nil => exact List.forall_mem_nil _
  | cons m rest ih =>
    rw [AreTrees] at h
    exact List.forall_mem_cons.2 ⟨h.1, ih h.2.1⟩

theorem Markup.areTrees_map {elements : List Element} (h : ∀ e ∈ elements, IsTree e.markup) :
    AreTrees (elements.map Element.markup) := by
  induction elements with
  | nil =>
    rw [List.map_nil, AreTrees]
    trivial
  | cons e rest ih =>
    rw [List.map_cons, AreTrees]
    exact ⟨h e List.mem_cons_self, ih fun f hf => h f (List.mem_cons_of_mem _ hf), rfl⟩

theorem Element.isTree_of_mem_elements {root e : Element} (h : Markup.IsTree root.markup)
    (he : e ∈ root.elements) : Markup.IsTree e.markup := by
  rw [Element.markup, Markup.IsTree] at h
  obtain ⟨m, hm, hsome⟩ := List.mem_filterMap.1 he
  have hm := h.2.2.isTree m hm
  cases m with
  | text t => cases hsome
  | element name attributes children =>
    obtain rfl := Option.some.inj hsome
    exact hm

/-- Every document that is read can be written with some of its elements, in any order. -/
theorem Document.exists_of_elements {doc : Document} {root : Element}
    (h : Markup.parseDocument doc.source = .ok root) {elements : List Element}
    (hmem : ∀ e ∈ elements, e ∈ root.elements) :
    ∃ (doc' : Document) (root' : Element), doc'.resource = doc.resource ∧
      Markup.parseDocument doc'.source = .ok root' ∧ root'.name = root.name ∧
      root'.attributes = root.attributes ∧ root'.elements = elements := by
  have hroot := Markup.isTree_of_parseDocument h
  obtain ⟨w, hw⟩ := Markup.WritesElement.exists_of root.name root.attributes
    (elements.map Element.markup)
  have helements : Markup.AreTrees (elements.map Element.markup) :=
    Markup.areTrees_map fun e he => Element.isTree_of_mem_elements hroot (hmem e he)
  have htree : Markup.IsTree (Element.markup
      ⟨root.name, root.attributes, elements.map Element.markup⟩) := by
    rw [Element.markup, Markup.IsTree] at hroot ⊢
    exact ⟨hroot.1, hroot.2.1, helements⟩
  rw [← String.toList_ofList (l := w)] at hw
  have hread := Markup.parseDocument_of_writes htree hw
  exact ⟨⟨.ofList w, doc.resource⟩, _, rfl, hread, rfl, rfl, Element.elements_map ..⟩

/-- Every document that is read can be written without its foreign elements. -/
theorem Document.exists_withoutForeign (active : Option String) {doc : Document} {root : Element}
    (h : Markup.parseDocument doc.source = .ok root) : ∃ doc', doc.WithoutForeign active doc' := by
  have hmem : ∀ e ∈ Element.native active root.elements, e ∈ root.elements :=
    fun _ he => (List.mem_filter.1 he).1
  obtain ⟨doc', root', hresource, hread, hroot⟩ := exists_of_elements h hmem
  exact ⟨doc', hresource, root, root', h, hread, hroot⟩

theorem Document.exists_forall₂_withoutForeign (active : Option String) {docs : List Document}
    (h : ∀ doc ∈ docs, ∃ root, Markup.parseDocument doc.source = .ok root) :
    ∃ docs', List.Forall₂ (WithoutForeign active) docs docs' := by
  induction docs with
  | nil => exact ⟨[], .nil⟩
  | cons doc rest ih =>
    obtain ⟨⟨root, hroot⟩, hrest⟩ := List.forall_mem_cons.1 h
    obtain ⟨doc', hdoc⟩ := exists_withoutForeign active hroot
    obtain ⟨docs', hdocs⟩ := ih hrest
    exact ⟨doc' :: docs', .cons hdoc hdocs⟩

/-- The namespace of a document is read from the name and the attributes of its root. -/
theorem Loading.content_of_root {doc doc' : Document} {root root' : Element} {space : String}
    {elements : List Element} (hread : Markup.parseDocument doc.source = .ok root)
    (hread' : Markup.parseDocument doc'.source = .ok root')
    (hresource : doc'.resource = doc.resource) (hname : root'.name = root.name)
    (hattributes : root'.attributes = root.attributes)
    (hcontent : content doc.source doc.resource = .ok (space, elements)) :
    elements = root.elements ∧
      content doc'.source doc'.resource = .ok (space, root'.elements) := by
  rw [content, hread] at hcontent
  obtain ⟨_, hroot, hcontent⟩ := exists_of_bind_eq_ok hcontent
  obtain rfl := Except.ok.inj hroot
  obtain ⟨space', hspace, hcontent⟩ := exists_of_bind_eq_ok hcontent
  obtain ⟨rfl, rfl⟩ := Prod.mk.inj (Except.ok.inj hcontent)
  have hspace' : Loading.space doc'.resource root' = .ok space' := by
    rw [← hspace, hresource]
    simp only [Loading.space, Element.required, Element.attribute?]
    rw [hname, hattributes]
  refine ⟨rfl, ?_⟩
  rw [content, hread']
  dsimp only [bind, Except.bind]
  rw [hspace']
  rfl

/-- Without its foreign elements, a document has the same namespace. -/
theorem Document.WithoutForeign.content_eq {active : Option String} {doc doc' : Document}
    (h : doc.WithoutForeign active doc') {space : String} {elements : List Element}
    (hcontent : Loading.content doc.source doc.resource = .ok (space, elements)) :
    Loading.content doc'.source doc'.resource = .ok (space, Element.native active elements) := by
  obtain ⟨hresource, root, root', hread, hread', hname, hattributes, helements⟩ := h
  obtain ⟨rfl, hcontent'⟩ :=
    Loading.content_of_root hread hread' hresource hname hattributes hcontent
  rw [hcontent', helements]

/-! ### Drafts that are alike -/

namespace Draft

/-- Two drafts for a dialect have the same statements, the same statements wait in them, and the
same fragments are registered. One of them may have entries without fragments for more ids. -/
structure Alike (active : Option String) (d d' : Draft) : Prop where
  dialect : d.dialect = active
  toCatalog : d'.toCatalog = d.toCatalog
  pending : d'.pending = d.pending
  fragments : ∀ id dialect, d'.fragments.variant? id dialect = d.fragments.variant? id dialect

variable {active : Option String} {d d' : Draft}

theorem Alike.refl (d : Draft) : Alike d.dialect d d :=
  ⟨rfl, rfl, rfl, fun _ _ => rfl⟩

theorem Alike.fragment?_eq (h : Alike active d d') (id : String) :
    d'.fragment? id = d.fragment? id := by
  rw [fragment?, fragment?, Entries.resolve?_eq, Entries.resolve?_eq, h.fragments, h.fragments,
    h.toCatalog]

theorem Alike.insert (h : Alike active d d') (s : Statement) :
    Alike active (d.insert s) (d'.insert s) where
  dialect := (sameFrame_insert d s).dialect.trans h.dialect
  toCatalog := by rw [toCatalog_insert, toCatalog_insert, h.toCatalog]
  pending := by rw [(sameFrame_insert d' s).pending, (sameFrame_insert d s).pending, h.pending]
  fragments := by
    rw [(sameFrame_insert d' s).fragments, (sameFrame_insert d s).fragments]
    exact h.fragments

theorem Alike.setPending (h : Alike active d d') (waiting : List Declaration) :
    Alike active { d with pending := waiting } { d' with pending := waiting } :=
  ⟨h.dialect, h.toCatalog, rfl, h.fragments⟩

theorem Alike.fragmentFree_iff (h : Alike active d d') {id : String} {dialect : Option String} :
    d'.FragmentFree id dialect ↔ d.FragmentFree id dialect := by
  rw [FragmentFree, FragmentFree, h.fragments, h.toCatalog]

/-- A fragment that is passed over makes no difference. -/
theorem Alike.placeFragment_of_not_applies (h : Alike active d d') {dialect : Option String}
    (happly : ¬ Applies d.dialect dialect) (id : String) (fragment : Element) :
    Alike active (d.placeFragment id dialect fragment) d' where
  dialect := by rw [toCatalog_placeFragment, h.dialect]
  toCatalog := by rw [toCatalog_placeFragment, h.toCatalog]
  pending := by rw [pending_placeFragment, h.pending]
  fragments id' dialect' := by
    rw [variant?_placeFragment, if_neg fun hplace => happly hplace.1, h.fragments]

theorem Alike.placeFragment (h : Alike active d d') (id : String) (dialect : Option String)
    (fragment : Element) :
    Alike active (d.placeFragment id dialect fragment) (d'.placeFragment id dialect fragment) where
  dialect := by rw [toCatalog_placeFragment, h.dialect]
  toCatalog := by rw [toCatalog_placeFragment, toCatalog_placeFragment, h.toCatalog]
  pending := by rw [pending_placeFragment, pending_placeFragment, h.pending]
  fragments id' dialect' := by
    rw [variant?_placeFragment, variant?_placeFragment, h.fragments, h.toCatalog]

end Draft

/-- Drafts that are alike compile an element alike. -/
theorem Draft.Alike.prepare_eq {active : Option String} {d d' : Draft} (h : Alike active d d')
    (space : String) (e : Element) (command : Command) (id : String) :
    Registration.prepare d' space e command id = Registration.prepare d space e command id := by
  rw [Registration.prepare, Registration.prepare, Inclusion.apply_congr h.fragment?_eq,
    h.toCatalog]

/-! ### Steps of loading -/

namespace Loading

variable {active : Option String} {α β : Type}

/-- A step of loading gives the same from drafts that are alike, be it a failure, and leaves drafts
that are alike. -/
def Uniform (active : Option String) (m : Loading α) : Prop :=
  ∀ d d', Draft.Alike active d d' → (m d').1 = (m d).1 ∧ Draft.Alike active (m d).2 (m d').2

/-- Where one step of loading succeeds, another one gives the same from a draft that is alike. -/
def Carries (active : Option String) (m m' : Loading α) : Prop :=
  ∀ d d' a e, Draft.Alike active d d' → m d = (.ok a, e) →
    ∃ e', m' d' = (.ok a, e') ∧ Draft.Alike active e e'

theorem uniform_pure (a : α) : Uniform active (pure a) :=
  fun _ _ h => ⟨rfl, h⟩

theorem uniform_bind {m : Loading α} {f : α → Loading β} (hm : Uniform active m)
    (hf : ∀ a, Uniform active (f a)) : Uniform active (m >>= f) := by
  intro d d' h
  rw [bind_apply, bind_apply]
  obtain ⟨hresult, halike⟩ := hm d d' h
  rcases hrun : m d with ⟨result, e⟩
  rcases hrun' : m d' with ⟨result', e'⟩
  rw [hrun, hrun'] at hresult halike
  obtain rfl : result = result' := hresult.symm
  cases result with
  | error failure => exact ⟨rfl, halike⟩
  | ok a => exact hf a e e' halike

theorem uniform_read {f : Draft → Except Failure α}
    (hf : ∀ d d', Draft.Alike active d d' → f d' = f d) : Uniform active (read f) :=
  fun d d' h => ⟨hf d d' h, h⟩

theorem uniform_insert (s : Statement) : Uniform active (modify (·.insert s)) :=
  fun _ _ h => ⟨rfl, h.insert s⟩

theorem Uniform.carries {m : Loading α} (hm : Uniform active m) : Carries active m m := by
  intro d d' a e h hrun
  obtain ⟨hresult, halike⟩ := hm d d' h
  rw [hrun] at hresult halike
  exact ⟨(m d').2, Prod.ext hresult rfl, halike⟩

theorem carries_bind {m m' : Loading α} {f f' : α → Loading β} (hm : Carries active m m')
    (hf : ∀ a, Carries active (f a) (f' a)) : Carries active (m >>= f) (m' >>= f') := by
  intro d d' b e h hrun
  obtain ⟨a, c, hfirst, hrest⟩ := exists_of_bind_apply_eq_ok hrun
  obtain ⟨c', hfirst', hc⟩ := hm d d' a c h hfirst
  obtain ⟨e', hrest', he⟩ := hf a c c' b e hc hrest
  refine ⟨e', ?_, he⟩
  rw [bind_apply, hfirst']
  exact hrest'

/-! ### Registration -/

theorem uniform_admits (id : String) (dialect : Option String) :
    Uniform active (read (·.admits id dialect)) :=
  uniform_read fun _ _ h => by rw [h.toCatalog]

theorem uniform_add (s : Statement) : Uniform active (add s) := by
  refine uniform_bind (uniform_admits s.id s.dialect) fun admitted => ?_
  cases admitted with
  | false => exact uniform_pure none
  | true => exact uniform_bind (uniform_insert s) fun _ => uniform_pure (some s)

theorem uniform_publish (s : Statement) : Uniform active (Registration.publish s) := by
  rw [Registration.publish]
  cases s.keys with
  | absent => exact uniform_add s
  | generated => exact uniform_add s
  | selected key before =>
    refine uniform_bind (uniform_admits key.id key.dialect) fun admitted => ?_
    cases admitted with
    | false => exact uniform_pure none
    | true =>
      refine uniform_bind (uniform_add _) fun registered => ?_
      cases registered with
      | none => exact uniform_add _
      | some t => exact uniform_add s

/-- A statement element is registered alike in drafts that are alike, or it fails alike. -/
theorem uniform_register (space : String) (e : Element) :
    Uniform active (Registration.register space e) := by
  rw [Registration.register]
  refine uniform_bind (uniform_read fun _ _ _ => rfl) fun heading => ?_
  refine uniform_bind (uniform_admits heading.2 _) fun admitted => ?_
  cases admitted with
  | false => exact uniform_pure none
  | true =>
    exact uniform_bind (uniform_read fun _ _ h => h.prepare_eq space e _ _) uniform_publish

/-- Whether a statement has to wait is the same in drafts that are alike. -/
theorem uniform_statement (space : String) (e : Element) :
    Uniform active (statement space e) := by
  intro d d' h
  obtain ⟨hresult, halike⟩ := uniform_register space e d d' h
  rw [statement, statement]
  rcases hrun : Registration.register space e d with ⟨result, m⟩
  rcases hrun' : Registration.register space e d' with ⟨result', m'⟩
  rw [hrun, hrun'] at hresult halike
  obtain rfl : result = result' := hresult.symm
  cases result with
  | ok registered => cases registered <;> exact ⟨rfl, halike⟩
  | error failure =>
    cases failure
    case fragmentNotFound =>
      dsimp only
      rw [halike.pending]
      exact ⟨rfl, halike.setPending _⟩
    all_goals exact ⟨rfl, halike⟩

theorem uniform_pending (waiting : List Declaration) : Uniform active (pending waiting) := by
  induction waiting with
  | nil => exact uniform_pure ()
  | cons p rest ih => exact uniform_bind (uniform_register p.space p.element) fun _ => ih

/-! ### Fragments -/

theorem uniform_fragment (space : String) (e : Element) : Uniform active (fragment space e) := by
  intro d d' h
  rw [fragment_apply, fragment_apply]
  cases Declaration.fragmentId ⟨space, e⟩ with
  | error failure => exact ⟨rfl, h⟩
  | ok id =>
    dsimp only
    by_cases hfree : d.FragmentFree id (e.attribute? "databaseId")
    · rw [Draft.addFragment_of_free hfree, Draft.addFragment_of_free (h.fragmentFree_iff.2 hfree)]
      exact ⟨rfl, h.placeFragment id _ e⟩
    · rw [Draft.addFragment_of_not_free hfree,
        Draft.addFragment_of_not_free (mt h.fragmentFree_iff.1 hfree)]
      exact ⟨rfl, h⟩

/-- A foreign element is passed over among the fragments. -/
theorem carries_foreign_fragment (space : String) {e : Element}
    (hforeign : e.IsForeign active) :
    Carries active (if e.name = "sql" then fragment space e else pure ()) (pure ()) := by
  intro d d' u m h hrun
  refine ⟨d', rfl, ?_⟩
  split at hrun
  · obtain ⟨id, -, -, rfl⟩ := fragment_eq_ok_iff.1 hrun
    exact h.placeFragment_of_not_applies (h.dialect ▸ hforeign.1) id e
  · obtain rfl := (Prod.mk.inj hrun).2
    exact h

theorem fragments_cons (space : String) (e : Element) (rest : List Element) :
    fragments space (e :: rest) =
      (if e.name = "sql" then fragment space e else pure ()) >>= fun _ => fragments space rest := by
  rw [fragments]
  split
  · rfl
  · rw [pure_bind]

theorem uniform_fragment_of_sql (space : String) (e : Element) :
    Uniform active (if e.name = "sql" then fragment space e else pure ()) := by
  split
  · exact uniform_fragment space e
  · exact uniform_pure ()

theorem uniform_fragments (space : String) (elements : List Element) :
    Uniform active (fragments space elements) := by
  induction elements with
  | nil => exact uniform_pure ()
  | cons e rest ih =>
    rw [fragments_cons]
    exact uniform_bind (uniform_fragment_of_sql space e) fun _ => ih

theorem carries_fragments (space : String) (elements : List Element) :
    Carries active (fragments space elements)
      (fragments space (Element.native active elements)) := by
  induction elements with
  | nil => exact (uniform_pure ()).carries
  | cons e rest ih =>
    by_cases hforeign : e.IsForeign active
    · have hstep := carries_bind (carries_foreign_fragment space hforeign) fun _ => ih
      rw [pure_bind, ← fragments_cons] at hstep
      rwa [Element.native_cons_of_isForeign hforeign]
    · rw [Element.native_cons_of_not_isForeign hforeign, fragments_cons, fragments_cons]
      exact carries_bind (uniform_fragment_of_sql space e).carries fun _ => ih

/-! ### Statements -/

theorem qualifyId_ne_fragmentNotFound (space id element reference : String) :
    qualifyId space id element ≠ .error (.fragmentNotFound reference) := by
  intro h
  rw [qualifyId] at h
  split at h
  · cases h
  · split at h <;> cases h

/-- A heading that cannot be read is no reason to wait. -/
theorem heading_ne_fragmentNotFound (space : String) (e : Element) (reference : String) :
    Registration.heading space e ≠ .error (.fragmentNotFound reference) := by
  intro h
  rw [Registration.heading] at h
  split at h
  · rw [Element.required] at h
    cases hname : e.attribute? "id" with
    | none =>
      rw [hname] at h
      cases h
    | some name =>
      rw [hname] at h
      cases hid : qualifyId space name e.name with
      | ok id =>
        simp only [bind, Except.bind, hid] at h
        cases h
      | error failure =>
        simp only [bind, Except.bind, hid] at h
        obtain rfl := Except.error.inj h
        exact qualifyId_ne_fragmentNotFound space name e.name reference hid
  · cases h

/-- A statement element for a dialect that does not apply is passed over, if it is not refused for
its heading. -/
theorem statement_of_not_applies {space : String} {e : Element} {d d' : Draft} {n : Nat}
    (hforeign : ¬ Applies d.dialect (e.attribute? "databaseId"))
    (hrun : statement space e d = (.ok n, d')) : n = 0 ∧ d' = d := by
  rw [statement, Registration.register_apply] at hrun
  cases hheading : Registration.heading space e with
  | error failure =>
    rw [hheading] at hrun
    cases failure
    case fragmentNotFound reference =>
      exact absurd hheading (heading_ne_fragmentNotFound space e reference)
    all_goals cases (Prod.mk.inj hrun).1
  | ok pair =>
    rw [hheading] at hrun
    dsimp only at hrun
    rw [Catalog.admits_eq, if_pos hforeign] at hrun
    obtain ⟨hn, rfl⟩ := Prod.mk.inj hrun
    exact ⟨(Except.ok.inj hn).symm, rfl⟩

/-- A foreign element is passed over among the statements. -/
theorem carries_foreign_statement (space : String) {e : Element}
    (hforeign : e.IsForeign active) :
    Carries active
      (if (Command.ofTag? e.name).isSome then statement space e else pure 0) (pure 0) := by
  intro d d' n m h hrun
  split at hrun
  · obtain ⟨rfl, rfl⟩ := statement_of_not_applies (h.dialect ▸ hforeign.1) hrun
    exact ⟨d', rfl, h⟩
  · obtain ⟨hn, rfl⟩ := Prod.mk.inj hrun
    exact ⟨d', Prod.ext hn rfl, h⟩

theorem statements_cons (space : String) (e : Element) (rest : List Element) :
    statements space (e :: rest) =
      (if (Command.ofTag? e.name).isSome then statement space e else pure 0) >>= fun first =>
        statements space rest >>= fun others => pure (first + others) := by
  rw [statements]
  split <;> rfl

theorem uniform_statement_of_tag (space : String) (e : Element) :
    Uniform active (if (Command.ofTag? e.name).isSome then statement space e else pure 0) := by
  split
  · exact uniform_statement space e
  · exact uniform_pure 0

theorem uniform_statements (space : String) (elements : List Element) :
    Uniform active (statements space elements) := by
  induction elements with
  | nil => exact uniform_pure 0
  | cons e rest ih =>
    rw [statements_cons]
    exact uniform_bind (uniform_statement_of_tag space e) fun first =>
      uniform_bind ih fun others => uniform_pure (first + others)

theorem carries_statements (space : String) (elements : List Element) :
    Carries active (statements space elements)
      (statements space (Element.native active elements)) := by
  induction elements with
  | nil => exact (uniform_pure 0).carries
  | cons e rest ih =>
    have hrest (first : Nat) := carries_bind ih fun others =>
      (uniform_pure (first + others) : Uniform active _).carries
    by_cases hforeign : e.IsForeign active
    · have hstep := carries_bind (carries_foreign_statement space hforeign) hrest
      rw [pure_bind, ← statements_cons] at hstep
      rw [Element.native_cons_of_isForeign hforeign]
      simpa only [Nat.zero_add, bind_pure] using hstep
    · rw [Element.native_cons_of_not_isForeign hforeign, statements_cons, statements_cons]
      exact carries_bind (uniform_statement_of_tag space e).carries hrest

/-! ### Documents -/

/-- A document loads without its foreign elements, and as many statements of it are registered. -/
theorem carries_document {doc doc' : Document} (hdoc : doc.WithoutForeign active doc') :
    Carries active (document doc.source doc.resource) (document doc'.source doc'.resource) := by
  intro d d' n e h hrun
  obtain ⟨space, elements, hcontent⟩ := content_of_document hrun
  rw [document_apply hcontent] at hrun
  rw [document_apply (hdoc.content_eq hcontent)]
  exact carries_bind (carries_fragments space elements)
    (fun _ => carries_statements space elements) d d' n e h hrun

/-- Loads documents one after another, with the number of statements registered from each. -/
def counts : List Document → Loading (List Nat)
  | [] => pure []
  | doc :: rest => do
    let first ← document doc.source doc.resource
    let others ← counts rest
    return first :: others

/-- Documents that load are read. -/
theorem exists_of_counts {docs : List Document} {d d' : Draft} {l : List Nat}
    (h : counts docs d = (.ok l, d')) :
    ∀ doc ∈ docs, ∃ root, Markup.parseDocument doc.source = .ok root := by
  induction docs generalizing d l with
  | nil => exact List.forall_mem_nil _
  | cons doc rest ih =>
    obtain ⟨first, m, hfirst, h⟩ := exists_of_bind_apply_eq_ok h
    obtain ⟨others, m', hothers, h⟩ := exists_of_bind_apply_eq_ok h
    obtain ⟨space, elements, hcontent⟩ := content_of_document hfirst
    obtain ⟨root, hroot, -⟩ := exists_of_bind_eq_ok hcontent
    obtain rfl := (Prod.mk.inj h).2
    exact List.forall_mem_cons.2 ⟨⟨root, hroot⟩, ih hothers⟩

theorem carries_counts {docs docs' : List Document}
    (hdocs : List.Forall₂ (Document.WithoutForeign active) docs docs') :
    Carries active (counts docs) (counts docs') := by
  induction hdocs with
  | nil => exact (uniform_pure []).carries
  | cons hdoc _ ih =>
    exact carries_bind (carries_document hdoc) fun first =>
      carries_bind ih fun others => (uniform_pure (first :: others)).carries

end Loading

/-- Drafts that are alike are completed alike. -/
theorem Draft.Alike.build_eq {active : Option String} {d d' : Draft} (h : Alike active d d') :
    d'.build = d.build := by
  obtain ⟨hresult, halike⟩ :=
    Loading.uniform_pending d.pending _ _ (h.setPending [])
  rw [build, build, h.pending]
  rcases hrun : Loading.pending d.pending { d with pending := [] } with ⟨result, m⟩
  rcases hrun' : Loading.pending d.pending { d' with pending := [] } with ⟨result', m'⟩
  rw [hrun, hrun'] at hresult halike
  obtain rfl : result = result' := hresult.symm
  cases result with
  | error failure => rfl
  | ok u => exact congrArg Except.ok halike.toCatalog

/-- Documents that load and build can be written without the elements that are foreign to the
active dialect. In whichever way they are, they load and build, with as many statements registered
from each, and into the same catalog: whatever is looked up, listed or bound in it is the same. -/
theorem Draft.configure_without_foreign {start d : Draft} {docs : List Document}
    {counts : List Nat} {c : Catalog} (hload : Loading.counts docs start = (.ok counts, d))
    (hbuild : d.build = .ok c) :
    (∃ docs', List.Forall₂ (Document.WithoutForeign start.dialect) docs docs') ∧
      ∀ docs', List.Forall₂ (Document.WithoutForeign start.dialect) docs docs' →
        ∃ d', Loading.counts docs' start = (.ok counts, d') ∧ d'.build = .ok c := by
  refine ⟨?_, fun docs' hdocs => ?_⟩
  · exact Document.exists_forall₂_withoutForeign start.dialect (Loading.exists_of_counts hload)
  · obtain ⟨d', hload', halike⟩ :=
      Loading.carries_counts hdocs start start counts d (.refl start) hload
    exact ⟨d', hload', halike.build_eq.trans hbuild⟩

namespace coexisting

/-- A statement that waits for a fragment, with a variant for another dialect that could not be
compiled. -/
def first : Element where
  name := "mapper"
  attributes := [("namespace", "a")]
  children :=
    [.element "select" [("id", "s")] [.element "include" [("refid", "b.c")] []],
      .element "select" [("id", "s"), ("databaseId", "mysql")]
        [.element "include" [("refid", "none")] []]]

/-- The same document for one dialect. -/
def first' : Element where
  name := "mapper"
  attributes := [("namespace", "a")]
  children := [.element "select" [("id", "s")] [.element "include" [("refid", "b.c")] []]]

/-- The fragment, with a variant for another dialect in front. -/
def second : Element where
  name := "mapper"
  attributes := [("namespace", "b")]
  children :=
    [.element "sql" [("id", "c"), ("databaseId", "mysql")] [.text "m"],
      .element "sql" [("id", "c")] [.text "t"], .element "delete" [("id", "d")] [.text "x"]]

/-- The same document for one dialect. -/
def second' : Element where
  name := "mapper"
  attributes := [("namespace", "b")]
  children :=
    [.element "sql" [("id", "c")] [.text "t"], .element "delete" [("id", "d")] [.text "x"]]

/-- An element, plainly written as a document. -/
def document (e : Element) : Document where
  source := .ofList (Markup.write e.markup)
  resource := "mapper.xml"

theorem parse_document {e : Element} (h : Markup.IsPlain e.markup) :
    Markup.parseDocument (document e).source = .ok e :=
  Markup.parseDocument_write (String.toList_ofList ..) h

def documents : List Document := [document first, document second]

def documents' : List Document := [document first', document second']

theorem withoutForeign :
    List.Forall₂ (Document.WithoutForeign (some "h2")) documents documents' :=
  .cons ⟨rfl, first, first', parse_document (by decide), parse_document (by decide), rfl, rfl, rfl⟩
    (.cons ⟨rfl, second, second', parse_document (by decide), parse_document (by decide), rfl, rfl,
      rfl⟩ .nil)

/-- The documents as they are loaded while a dialect is active. -/
def loaded : Except Failure (List Nat) × Draft :=
  Loading.counts documents { dialect := some "h2" }

theorem content_first : Loading.content (document first).source (document first).resource =
    .ok ("a", first.elements) := by
  rw [Loading.content, parse_document (by decide)]
  rfl

theorem content_second : Loading.content (document second).source (document second).resource =
    .ok ("b", second.elements) := by
  rw [Loading.content, parse_document (by decide)]
  rfl

/-- The first statement has to wait, and the last one is registered. -/
theorem loaded_eq : loaded.1 = .ok [0, 1] := by
  simp only [loaded, documents, Loading.counts, bind_apply, Loading.document_apply content_first,
    Loading.document_apply content_second]
  cbv

theorem build_ok : loaded.2.build.toBool = true := by
  simp only [loaded, documents, Loading.counts, bind_apply, Loading.document_apply content_first,
    Loading.document_apply content_second]
  cbv

end coexisting

open coexisting in
/-- Two mappers with variants for another dialect, one of which could not be compiled, and the same
mappers without them. -/
theorem Draft.configure_without_foreign_coexisting :
    ∃ c, (∃ d, Loading.counts documents { dialect := some "h2" } = (.ok [0, 1], d) ∧
        d.build = .ok c) ∧
      ∃ d', Loading.counts documents' { dialect := some "h2" } = (.ok [0, 1], d') ∧
        d'.build = .ok c := by
  obtain ⟨c, hbuild⟩ := exists_of_toBool build_ok
  have hload : Loading.counts documents { dialect := some "h2" } = (.ok [0, 1], loaded.2) :=
    Prod.ext loaded_eq rfl
  obtain ⟨-, hrun⟩ := configure_without_foreign hload hbuild
  exact ⟨c, ⟨loaded.2, hload, hbuild⟩, hrun documents' withoutForeign⟩

end SqlTemplate
