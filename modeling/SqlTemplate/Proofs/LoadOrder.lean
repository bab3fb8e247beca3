import SqlTemplate.Proofs.DocumentLoading
import SqlTemplate.Proofs.Expansion

/-!
# The order in which documents are loaded

A statement is compiled with the fragments known when it is registered. One that misses a fragment
waits for it, so that the order of documents does not decide which statements there are. Yet a
fragment may be known for no dialect while its variant for the active dialect is still to come: then
the statement does not wait, and keeps what the later variant would have replaced. Where no order
comes to this, the order of documents cannot be told from the catalog.

## Main definitions

* `Document.Settled` : no fragment is replaced by its variant after it is known for no dialect.

## Main results

* `Draft.Loaded.extends_of_settled` : of settled documents, what the earlier ones know stays.
* `Draft.configure_perm` : two orders of some documents give the same ids, and where both are
  settled, the same catalog to every reader.
-/

namespace SqlTemplate

/-- The first few of some documents declare a fragment for the active dialect, if they declare it
for none and any of the documents declares it for the active dialect. -/
def Document.Settled (active : Option String) (docs : List Document) : Prop :=
  ∀ earlier, earlier <+: docs → ∀ id dialect fragment variant, active = some dialect →
    Declares (declared earlier) id none fragment →
      Declares (declared docs) id (some dialect) variant →
        Declares (declared earlier) id (some dialect) variant

theorem Declares.mono {l l' : List Declaration} (h : ∀ x ∈ l, x ∈ l') {id : String}
    {dialect : Option String} {fragment : Element} (hl : Declares l id dialect fragment) :
    Declares l' id dialect fragment := by
  obtain ⟨x, hx, hdeclares⟩ := hl
  exact ⟨x, h x hx, hdeclares⟩

theorem Document.declared_mono {docs docs' : List Document} (h : ∀ doc ∈ docs, doc ∈ docs') :
    ∀ x ∈ declared docs, x ∈ declared docs' := by
  intro x hx
  obtain ⟨doc, hdoc, hx⟩ := List.mem_flatMap.1 hx
  exact List.mem_flatMap.2 ⟨doc, h doc hdoc, hx⟩

/-! ### Fragments of settled documents -/

theorem Draft.fragment?_eq (d : Draft) (id : String) :
    d.fragment? id = (d.fragments.variant? id d.dialect).or (d.fragments.variant? id none) := by
  rw [fragment?, Entries.resolve?_eq]

namespace Draft.Loaded

variable {start d d' : Draft} {l l' : List Declaration} {docs earlier : List Document}

/-- Of two drafts with the same settings, one extends the other if it knows its fragments. -/
theorem extends_of_fragment? (h : Loaded start l d) (h' : Loaded start l' d')
    (hfragment : ∀ id fragment, d.fragment? id = some fragment → d'.fragment? id = some fragment) :
    d.Extends d' where
  dialect := h'.dialect.trans h.dialect.symm
  generatedKeys := h'.generatedKeys.trans h.generatedKeys.symm
  engine := h'.engine.trans h.engine.symm
  fragment? := hfragment

/-- What is known from some elements is known from more. -/
theorem variant?_mono (h : Loaded start l d) (h' : Loaded start l' d') (hmem : ∀ x ∈ l, x ∈ l')
    {id : String} {dialect : Option String} {fragment : Element}
    (hf : d.fragments.variant? id dialect = some fragment) :
    d'.fragments.variant? id dialect = some fragment := by
  obtain ⟨happly, hdeclares⟩ := (h.fragments _ _ _).1 hf
  exact (h'.fragments _ _ _).2 ⟨happly, hdeclares.mono hmem⟩

/-- What a draft knows is decided by the elements that are loaded, in whatever order. -/
theorem extends_of_mem (h : Loaded start l d) (h' : Loaded start l' d')
    (hmem : ∀ x, x ∈ l ↔ x ∈ l') : d.Extends d' := by
  refine h.extends_of_fragment? h' fun id fragment hd => ?_
  have hsame (dialect : Option String) :
      d'.fragments.variant? id dialect = d.fragments.variant? id dialect :=
    Option.ext fun f =>
      ⟨h'.variant?_mono h fun x => (hmem x).2, h.variant?_mono h' fun x => (hmem x).1⟩
  rw [fragment?_eq] at hd ⊢
  rwa [hsame, hsame, h'.dialect, ← h.dialect]

/-- Of settled documents, no later one has the variant of a fragment of which the earlier ones have
the fallback alone. -/
theorem variant?_eq_none_of_settled (h : Loaded start (Document.declared earlier) d)
    (h' : Loaded start (Document.declared docs) d') (hearlier : earlier <+: docs)
    (hsettled : Document.Settled start.dialect docs) {id : String} {fragment : Element}
    (hnone : d.fragments.variant? id start.dialect = none)
    (hfallback : d.fragments.variant? id none = some fragment) :
    d'.fragments.variant? id start.dialect = none := by
  rw [Option.eq_none_iff_forall_ne_some]
  intro g hg
  cases hactive : start.dialect with
  | none =>
    rw [hactive, hfallback] at hnone
    cases hnone
  | some a =>
    obtain ⟨happly, hdeclares⟩ := (h'.fragments _ _ _).1 hg
    obtain ⟨-, hfallback⟩ := (h.fragments _ _ _).1 hfallback
    rw [hactive] at hdeclares
    have hearly := hsettled earlier hearlier id a fragment g hactive hfallback hdeclares
    rw [← hactive] at hearly
    have hsome := (h.fragments _ _ _).2 ⟨happly, hearly⟩
    rw [hnone] at hsome
    cases hsome

/-- Of settled documents, what the earlier ones know stays as it is. -/
theorem extends_of_settled (h : Loaded start (Document.declared earlier) d)
    (h' : Loaded start (Document.declared docs) d') (hearlier : earlier <+: docs)
    (hsettled : Document.Settled start.dialect docs) : d.Extends d' := by
  refine h.extends_of_fragment? h' fun id fragment hd => ?_
  have hmem : ∀ x ∈ Document.declared earlier, x ∈ Document.declared docs :=
    Document.declared_mono fun doc hdoc => hearlier.subset hdoc
  rw [fragment?_eq, h.dialect] at hd
  rw [fragment?_eq, h'.dialect]
  rcases Option.or_eq_some_iff.1 hd with hvariant | ⟨hnone, hfallback⟩
  · rw [h.variant?_mono h' hmem hvariant]
    rfl
  · rw [h.variant?_eq_none_of_settled h' hearlier hsettled hnone hfallback,
      h.variant?_mono h' hmem hfallback]
    rfl

end Draft.Loaded

/-! ### Two accounts -/

namespace Declaration

variable {x : Declaration} {d d' : Draft} {s s' : Statement}

theorem Compiles.extend (h : x.Compiles d s) (hd : d.Extends d') : x.Compiles d' s := by
  obtain ⟨command, hheading, hprepare⟩ := h
  exact ⟨command, hheading, hd.prepare_eq hprepare⟩

/-- An element comes to one statement. -/
theorem Compiles.unique (h : x.Compiles d s) (h' : x.Compiles d s') : s = s' := by
  obtain ⟨command, hheading, hprepare⟩ := h
  obtain ⟨command', hheading', hprepare'⟩ := h'
  have hpair := Except.ok.inj (hheading.symm.trans hheading')
  obtain ⟨rfl, hid⟩ := Prod.mk.inj hpair
  rw [← hid] at hprepare'
  exact Except.ok.inj (hprepare.symm.trans hprepare')

end Declaration

namespace Account

variable {start d d' : Draft} {docs docs' : List Document} {c c' : Catalog}
  {done done' : List (Declaration × Statement)}

/-- The ids of the catalog are those of the elements, whatever fragments these were compiled
with. -/
theorem mem_ids (h : Account start docs [] c done) {id : String} :
    id ∈ c.ids ↔ (∃ dialect, (id, dialect) ∈ Document.places start.dialect docs) ∧
      keySuffix.toList.isSuffixOf id.toList = false := by
  rw [h.sound.mem_ids]
  constructor
  · rintro ⟨t, ht, rfl, hkey⟩
    refine ⟨?_, hkey⟩
    rcases h.mem_registered_iff.1 ht with hkeyed | ⟨p, hp, rfl⟩
    · obtain ⟨p, hp, key, before, hkeys, rfl⟩ := h.mem_keyStatements.1 hkeyed
      obtain ⟨-, d, -, -, hcompiles⟩ := h.compiled p hp
      rw [Definition.isKeyStatement, (hcompiles.ownsKey key before hkeys).1, String.toList_append,
        List.isSuffixOf_iff_suffix.2 (List.suffix_append _ _)] at hkey
      cases hkey
    · exact ⟨p.2.dialect, h.places_perm.mem_iff.1 (List.mem_map.2 ⟨p, hp, rfl⟩)⟩
  · rintro ⟨⟨dialect, hplace⟩, hkey⟩
    obtain ⟨p, hp, heq⟩ := List.mem_map.1 (h.places_perm.mem_iff.2 hplace)
    obtain ⟨rfl, -⟩ := Prod.mk.inj heq
    exact ⟨p.2, h.self_mem_registered hp, rfl, hkey⟩

/-- Of settled documents, every element came to what it comes to with all fragments. -/
theorem compiles_of_settled (h : Account start docs [] c done)
    (hd : Draft.Loaded start (Document.declared docs) d)
    (hsettled : Document.Settled start.dialect docs) {p : Declaration × Statement} (hp : p ∈ done) :
    p.1.Compiles d p.2 := by
  obtain ⟨earlier, m, hearlier, hm, hcompiles⟩ := h.compiled p hp
  exact hcompiles.extend (hm.extends_of_settled hd hearlier hsettled)

/-- Two settled orders of some documents register the same statements. -/
theorem registered_subset (h : Account start docs [] c done) (h' : Account start docs' [] c' done')
    (hd : Draft.Loaded start (Document.declared docs) d)
    (hd' : Draft.Loaded start (Document.declared docs') d')
    (hmem : ∀ doc, doc ∈ docs ↔ doc ∈ docs') (hsettled : Document.Settled start.dialect docs)
    (hsettled' : Document.Settled start.dialect docs') : c.registered ⊆ c'.registered := by
  have hdeclared (x : Declaration) : x ∈ Document.declared docs ↔ x ∈ Document.declared docs' :=
    ⟨Document.declared_mono (fun doc => (hmem doc).1) x,
      Document.declared_mono (fun doc => (hmem doc).2) x⟩
  intro t ht
  obtain ⟨p, hp, htp⟩ := (h.mem_registered t).1 ht
  have hp' : p.1 ∈ Document.applicable start.dialect docs' := by
    have happlicable := h.counted_of_complete.mem_iff.1 (List.mem_map.2 ⟨p, hp, rfl⟩)
    rw [Document.applicable, List.mem_filter] at happlicable ⊢
    exact ⟨(hdeclared p.1).1 happlicable.1, happlicable.2⟩
  obtain ⟨q, hq, hqp⟩ := List.mem_map.1 (h'.counted_of_complete.mem_iff.2 hp')
  have hsame : p.2 = q.2 := by
    have hcompiles := (h.compiles_of_settled hd hsettled hp).extend
      (hd.extends_of_mem hd' hdeclared)
    rw [← hqp] at hcompiles
    exact hcompiles.unique (h'.compiles_of_settled hd' hsettled' hq)
  exact (h'.mem_registered t).2 ⟨q, hq, hsame ▸ htp⟩

end Account

/-- Two orders in which the same documents are loaded, and the catalog completed, give the same ids.
Where both are settled, there is no difference to any reader: the listings are the same statements,
with all that belongs to them, and so are the results of each look-up and the bound SQL for each
parameter. -/
theorem Draft.configure_perm {dialect : Option String} {generatedKeys : Bool} {engine : Engine}
    {docs docs' : List Document} {c c' : Catalog} (hperm : docs.Perm docs')
    (hrun : configure { dialect, generatedKeys, engine } docs = .ok c)
    (hrun' : configure { dialect, generatedKeys, engine } docs' = .ok c') :
    c.ids = c'.ids ∧
    (Document.Settled dialect docs → Document.Settled dialect docs' →
      c.listing = c'.listing ∧
      (∀ name other, c.statementFor name other = c'.statementFor name other) ∧
      ∀ name parameter, c.bind name parameter = c'.bind name parameter) := by
  obtain ⟨d, done, rfl, hd, haccount⟩ := exists_account hrun
  obtain ⟨d', done', rfl, hd', haccount'⟩ := exists_account hrun'
  refine ⟨?_, fun hsettled hsettled' => ?_⟩
  · refine haccount.sound.ids_pairwise.eq_of_mem_iff haccount'.sound.ids_pairwise fun id => ?_
    have hplaces : (Document.places dialect docs).Perm (Document.places dialect docs') :=
      ((hperm.flatMap_right _).filter _).filterMap _
    rw [haccount.mem_ids, haccount'.mem_ids]
    simp only [hplaces.mem_iff]
  · have hregistered : d.registered = d'.registered :=
      (haccount.registered_subset haccount' hd hd' (fun _ => hperm.mem_iff) hsettled
        hsettled').antisymm
      (haccount'.registered_subset haccount hd' hd (fun _ => hperm.symm.mem_iff) hsettled' hsettled)
    have hlookup (name : String) (other : Option String) :
        d.statementFor name other = d'.statementFor name other := by
      refine haccount.sound.statementFor_eq_iff.2 ?_
      rw [hregistered]
      exact haccount'.sound.statementFor_eq_iff.1 rfl
    refine ⟨?_, hlookup, fun name parameter => ?_⟩
    · rw [Catalog.listing, haccount.sound.statements_eq haccount'.sound hregistered,
        ← Catalog.listing]
    · rw [Catalog.bind, Catalog.bind, Catalog.statement, Catalog.statement, hd.dialect, hd'.dialect,
        hd.engine, hd'.engine, hlookup]

open deferring in
/-- No element of these documents is for a dialect. -/
theorem deferring.settled {docs : List Document} (hmem : ∀ doc ∈ docs, doc ∈ [first, second])
    (active : Option String) : Document.Settled active docs := by
  rintro - - - dialect - - - - ⟨x, hx, -, -, hdialect, -⟩
  have hx := Document.declared_mono hmem x hx
  rw [declared_eq] at hx
  rcases List.mem_pair.1 hx with rfl | rfl <;> cases hdialect

open deferring in
set_option maxRecDepth 20000 in
/-- The document of a fragment may be loaded before or after that of the insert that includes it. -/
theorem Draft.configure_perm_deferring :
    ∃ c c', configure { dialect := some "h2" } [first, second] = .ok c ∧
      configure { dialect := some "h2" } [second, first] = .ok c' ∧
      c.ids = c'.ids ∧ c.listing = c'.listing ∧ c.bind "f" .null = c'.bind "f" .null := by
  have hok : (configure { dialect := some "h2" } [second, first]).toBool = true := by
    simp only [configure, Loading.documents, bind_apply, Loading.document_apply content_first,
      Loading.document_apply content_second]
    cbv
  have hperm : [first, second].Perm [second, first] := List.Perm.swap second first []
  obtain ⟨c, hrun⟩ := exists_of_toBool configure_ok
  obtain ⟨c', hrun'⟩ := exists_of_toBool hok
  obtain ⟨hids, hreaders⟩ := configure_perm hperm hrun hrun'
  obtain ⟨hlisting, -, hbind⟩ := hreaders (settled (fun _ => id) _)
    (settled (fun _ => hperm.mem_iff.2) _)
  exact ⟨c, c', hrun, hrun', hids, hlisting, hbind _ _⟩

namespace unsettled

/-- A statement that includes a fragment of its own document. -/
def select : Element where
  name := "select"
  attributes := [("id", "s")]
  children := [.element "include" [("refid", "c")] []]

/-- The fragment, for no dialect. -/
def fallback : Element where
  name := "sql"
  attributes := [("id", "c")]
  children := [.text "any"]

/-- Its variant. -/
def variant : Element where
  name := "sql"
  attributes := [("id", "c"), ("databaseId", "mysql")]
  children := [.text "my"]

/-- The document of the statement. -/
def first : Document where
  source := "<mapper namespace=\"a\"><sql id=\"c\">any</sql><select id=\"s\">" ++
    "<include refid=\"c\"></include></select></mapper>"
  resource := "a.xml"

/-- The document of the variant. -/
def second : Document where
  source := "<mapper namespace=\"a\"><sql id=\"c\" databaseId=\"mysql\">my</sql></mapper>"
  resource := "b.xml"

theorem content_first :
    Loading.content first.source first.resource = .ok ("a", [fallback, select]) :=
  Loading.content_write (by decide) (by decide) (by decide)

theorem content_second : Loading.content second.source second.resource = .ok ("a", [variant]) :=
  Loading.content_write (by decide) (by decide) (by decide)

end unsettled

open unsettled in
set_option maxRecDepth 20000 in
/-- A statement keeps the fragment for no dialect if the variant for the active one comes later. -/
theorem Draft.configure_order_matters :
    let sql (docs : List Document) : Except Failure String := do
      let c ← configure { dialect := some "mysql" } docs
      let bound ← c.bind "a.s" .null
      return bound.sql
    [first, second].Perm [second, first] ∧ sql [first, second] = .ok "any" ∧
      sql [second, first] = .ok "my" := by
  refine ⟨List.Perm.swap second first [], ?_, ?_⟩
  · simp only [configure, Loading.documents, bind_apply, Loading.document_apply content_first,
      Loading.document_apply content_second]
    cbv
  · simp only [configure, Loading.documents, bind_apply, Loading.document_apply content_first,
      Loading.document_apply content_second]
    cbv

end SqlTemplate
