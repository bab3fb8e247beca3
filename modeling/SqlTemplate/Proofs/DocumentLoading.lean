import SqlTemplate.Proofs.PlainMarkup
import SqlTemplate.Proofs.Publishing

/-!
# No statement is lost while documents are loaded

A statement element that is loaded is registered at once, passed over for its dialect, or left to
wait for a fragment; what waits is registered when the catalog is completed. The invariant of all
this is an account of the elements whose dialect applies (`Account`): each of them is registered or
waits, and does so once. In the end none waits, and the catalog has one statement for each element,
beside the key statements.

## Main definitions

* `Document.applicable` : the statement elements of some documents that apply.
* `Document.places` : the ids and dialects under which these are registered.
* `Draft.configure` : documents loaded one after another, and the catalog completed.
* `Draft.placeFragment` : a draft after a fragment element is registered or passed over.
* `Draft.Loaded` : a draft has the fragments of some elements, as far as they apply.
* `Account` : the registered statements, and what waits, together are the elements that apply.

## Main results

* `Loading.fragment_eq_ok_iff` : when a fragment element is registered or passed over.
* `Account.register` : one registration keeps the account.
* `Draft.exists_account` : the account of a complete catalog.
* `Draft.configure_places` : a complete catalog has the statements of its documents, once each.
-/

namespace SqlTemplate

/-! ### What documents declare -/

namespace Declaration

/-- The dialect that an element is for, if it is for one. -/
def dialect (x : Declaration) : Option String :=
  x.element.attribute? "databaseId"

/-- A statement element whose dialect applies. -/
def Applicable (active : Option String) (x : Declaration) : Prop :=
  (Command.ofTag? x.element.name).isSome = true ∧ Applies active x.dialect

instance (active : Option String) (x : Declaration) : Decidable (x.Applicable active) :=
  inferInstanceAs (Decidable (_ ∧ _))

/-- The qualified id and the dialect under which a statement element is registered. -/
def place? (x : Declaration) : Option (String × Option String) :=
  match Registration.heading x.space x.element with
  | .ok (_, id) => some (id, x.dialect)
  | .error _ => none

/-- The qualified id of a fragment element. -/
def fragmentId (x : Declaration) : Except Failure String := do
  qualifyId x.space (← x.element.required "id") "sql"

/-- With the fragments of a draft, an element comes to a statement. -/
def Compiles (x : Declaration) (d : Draft) (s : Statement) : Prop :=
  ∃ command, Registration.heading x.space x.element = .ok (command, s.id) ∧
    Registration.prepare d x.space x.element command s.id = .ok s

/-- What an element comes to is for the place that it declares. -/
theorem Compiles.place?_eq {x : Declaration} {d : Draft} {s : Statement} (h : x.Compiles d s) :
    x.place? = some (s.id, s.dialect) := by
  obtain ⟨command, hheading, hprepare⟩ := h
  rw [place?, hheading, (Registration.of_prepare hprepare).2.1]
  rfl

theorem Compiles.ownsKey {x : Declaration} {d : Draft} {s : Statement} (h : x.Compiles d s) :
    s.OwnsKey := by
  obtain ⟨command, -, hprepare⟩ := h
  exact (Registration.of_prepare hprepare).2.2

end Declaration

/-- A mapper document, and the name of its resource. -/
structure Document where
  source : String
  resource : String

namespace Document

/-- The elements of a document. One that cannot be read has none. -/
def declarations (doc : Document) : List Declaration :=
  match Loading.content doc.source doc.resource with
  | .ok (space, elements) => elements.map (Declaration.mk space)
  | .error _ => []

/-- The elements of some documents. -/
def declared (docs : List Document) : List Declaration :=
  docs.flatMap declarations

/-- The statement elements of some documents whose dialect applies. -/
def applicable (active : Option String) (docs : List Document) : List Declaration :=
  (declared docs).filter fun x => x.Applicable active

/-- The qualified ids and the dialects of the statement elements whose dialect applies. -/
def places (active : Option String) (docs : List Document) : List (String × Option String) :=
  (applicable active docs).filterMap Declaration.place?

end Document

/-- Some elements declare a fragment under an id, for a dialect or for none. -/
def Declares (l : List Declaration) (id : String) (dialect : Option String) (fragment : Element) :
    Prop :=
  ∃ x ∈ l, x.element.name = "sql" ∧ x.fragmentId = .ok id ∧ x.dialect = dialect ∧
    x.element = fragment

theorem declares_append {l l' : List Declaration} {id : String} {dialect : Option String}
    {fragment : Element} :
    Declares (l ++ l') id dialect fragment ↔
      Declares l id dialect fragment ∨ Declares l' id dialect fragment := by
  simp only [Declares, List.mem_append, or_and_right, exists_or]

theorem declares_singleton {x : Declaration} {id : String} {dialect : Option String}
    {fragment : Element} :
    Declares [x] id dialect fragment ↔ x.element.name = "sql" ∧ x.fragmentId = .ok id ∧
      x.dialect = dialect ∧ x.element = fragment := by
  simp only [Declares, List.mem_singleton, exists_eq_left]

theorem Element.elements_map (name : String) (attributes : List (String × String))
    (elements : List Element) :
    Element.elements ⟨name, attributes, elements.map Element.markup⟩ = elements := by
  rw [Element.elements, List.filterMap_map]
  exact List.filterMap_some

namespace Loading

/-- Loads documents one after another. -/
def documents : List Document → Loading Unit
  | [] => pure ()
  | doc :: rest => do
    let _ ← document doc.source doc.resource
    documents rest

/-- A mapper that is plainly written has the elements that it was written from. -/
theorem content_write {source resource space : String} {elements : List Element}
    (hsource : source.toList =
      Markup.write (.element "mapper" [("namespace", space)] (elements.map Element.markup)))
    (hplain : Markup.IsPlain
      (.element "mapper" [("namespace", space)] (elements.map Element.markup)))
    (hspace : (Text.trim space.toList).isEmpty = false) :
    content source resource = .ok (space, elements) := by
  have hrequired (children : List Markup) :
      Element.required ⟨"mapper", [("namespace", space)], children⟩ "namespace" = .ok space := rfl
  rw [content, Markup.parseDocument_write (e := ⟨"mapper", _, _⟩) hsource hplain]
  dsimp only [bind, Except.bind]
  rw [Loading.space, if_neg (not_not.2 rfl), hrequired]
  dsimp only [bind, Except.bind]
  rw [hspace, Element.elements_map]
  rfl

theorem document_apply {source resource space : String} {elements : List Element}
    (h : content source resource = .ok (space, elements)) (d : Draft) :
    document source resource d =
      (fragments space elements >>= fun _ => statements space elements) d := by
  rw [document, bind_apply, read, h]

theorem content_of_document {source resource : String} {d d' : Draft} {n : Nat}
    (h : document source resource d = (.ok n, d')) :
    ∃ space elements, content source resource = .ok (space, elements) := by
  obtain ⟨⟨space, elements⟩, m, hread, -⟩ := exists_of_bind_apply_eq_ok h
  exact ⟨space, elements, (Prod.mk.inj hread).1⟩

end Loading

namespace Draft

/-- The catalog of some documents: they are loaded into a draft, and it is completed. -/
def configure (d : Draft) (docs : List Document) : Except Failure Catalog :=
  match Loading.documents docs d with
  | (.ok (), d) => d.build
  | (.error failure, _) => .error failure

/-! ### Fragments -/

/-- The draft with a fragment in a place of its own. -/
def insertFragment (d : Draft) (id : String) (dialect : Option String) (fragment : Element) :
    Draft :=
  { d with
    fragments := d.fragments.insert id (((d.fragments.find? id).getD {}).insert dialect fragment) }

/-- The draft with an entry for the fragments of an id. -/
def openFragment (d : Draft) (id : String) : Draft :=
  { d with fragments := d.fragments.insert id ((d.fragments.find? id).getD {}) }

/-- The draft once a fragment element is registered, or passed over for its dialect. -/
def placeFragment (d : Draft) (id : String) (dialect : Option String) (fragment : Element) :
    Draft :=
  if Applies d.dialect dialect then d.insertFragment id dialect fragment else d.openFragment id

theorem toCatalog_placeFragment (d : Draft) (id : String) (dialect : Option String)
    (fragment : Element) : (d.placeFragment id dialect fragment).toCatalog = d.toCatalog := by
  rw [placeFragment]
  split <;> rfl

theorem pending_placeFragment (d : Draft) (id : String) (dialect : Option String)
    (fragment : Element) : (d.placeFragment id dialect fragment).pending = d.pending := by
  rw [placeFragment]
  split <;> rfl

theorem variant?_placeFragment (d : Draft) (id id' : String) (dialect dialect' : Option String)
    (fragment : Element) :
    (d.placeFragment id dialect fragment).fragments.variant? id' dialect' =
      if Applies d.dialect dialect ∧ id = id' ∧ dialect = dialect' then some fragment
      else d.fragments.variant? id' dialect' := by
  rw [placeFragment]
  by_cases happly : Applies d.dialect dialect
  · rw [if_pos happly, insertFragment, Entries.variant?_insert]
    simp only [happly, true_and]
  · rw [if_neg happly, openFragment, Entries.variant?_insert_getD, if_neg fun h => happly h.1]

/-- The place of a fragment is free, if its dialect applies. -/
def FragmentFree (d : Draft) (id : String) (dialect : Option String) : Prop :=
  Applies d.dialect dialect → d.fragments.variant? id dialect = none

theorem addFragment_of_free {d : Draft} {id : String} {dialect : Option String}
    (h : d.FragmentFree id dialect) (fragment : Element) :
    d.addFragment id dialect fragment = .ok (d.placeFragment id dialect fragment) := by
  rw [addFragment, Variants.admission_eq]
  by_cases happly : Applies d.dialect dialect
  · rw [placeFragment.eq_def, if_neg (not_not.2 happly), if_pos happly, h happly]
    rfl
  · rw [placeFragment.eq_def, if_pos happly, if_neg happly]
    rfl

theorem addFragment_of_not_free {d : Draft} {id : String} {dialect : Option String}
    (h : ¬ d.FragmentFree id dialect) (fragment : Element) :
    d.addFragment id dialect fragment = .error (.duplicate id) := by
  obtain ⟨happly, htaken⟩ := Classical.not_imp.1 h
  rw [addFragment, Variants.admission_eq, if_neg (not_not.2 happly),
    if_pos (Option.isSome_iff_ne_none.2 htaken)]

theorem toCatalog_of_addFragment {d d' : Draft} {id : String} {dialect : Option String}
    {fragment : Element} (h : d.addFragment id dialect fragment = .ok d') :
    d'.toCatalog = d.toCatalog := by
  by_cases hfree : d.FragmentFree id dialect
  · rw [addFragment_of_free hfree] at h
    rw [← Except.ok.inj h, toCatalog_placeFragment]
  · rw [addFragment_of_not_free hfree] at h
    cases h

end Draft

namespace Loading

theorem fragment_apply (space : String) (e : Element) (d : Draft) :
    fragment space e d = match Declaration.fragmentId ⟨space, e⟩ with
      | .error failure => (.error failure, d)
      | .ok id => match d.addFragment id (e.attribute? "databaseId") e with
        | .ok d' => (.ok (), d')
        | .error failure => (.error failure, d) := by
  rw [fragment, step, Declaration.fragmentId]
  cases e.required "id" with
  | error failure => rfl
  | ok name =>
    dsimp only [bind, Except.bind]
    cases qualifyId space name "sql" with
    | error failure => rfl
    | ok id =>
      dsimp only [bind, Except.bind]
      cases d.addFragment id (e.attribute? "databaseId") e <;> rfl

/-- A fragment element is registered or passed over, unless it has no id or its place is taken. -/
theorem fragment_eq_ok_iff {space : String} {e : Element} {d d' : Draft} :
    fragment space e d = (.ok (), d') ↔ ∃ id, Declaration.fragmentId ⟨space, e⟩ = .ok id ∧
      d.FragmentFree id (e.attribute? "databaseId") ∧
      d.placeFragment id (e.attribute? "databaseId") e = d' := by
  rw [fragment_apply]
  cases Declaration.fragmentId ⟨space, e⟩ with
  | error failure =>
    constructor
    · intro hrun
      cases (Prod.mk.inj hrun).1
    · rintro ⟨id, hid, -⟩
      cases hid
  | ok id =>
    dsimp only
    by_cases hfree : d.FragmentFree id (e.attribute? "databaseId")
    · rw [Draft.addFragment_of_free hfree]
      constructor
      · intro hrun
        exact ⟨id, rfl, hfree, (Prod.mk.inj hrun).2⟩
      · rintro ⟨_, hid, -, rfl⟩
        rw [Except.ok.inj hid]
    · rw [Draft.addFragment_of_not_free hfree]
      constructor
      · intro hrun
        cases (Prod.mk.inj hrun).1
      · rintro ⟨_, hid, hfree', -⟩
        rw [Except.ok.inj hid] at hfree
        exact absurd hfree' hfree

end Loading

namespace Draft

/-- A draft has the settings of another, and of some elements it has the fragments that apply. -/
structure Loaded (start : Draft) (l : List Declaration) (d : Draft) : Prop where
  dialect : d.dialect = start.dialect
  generatedKeys : d.generatedKeys = start.generatedKeys
  engine : d.engine = start.engine
  fragments : ∀ id dialect fragment, d.fragments.variant? id dialect = some fragment ↔
    Applies start.dialect dialect ∧ Declares l id dialect fragment

variable {start d d' : Draft} {l : List Declaration}

theorem Loaded.sameFrame (h : Loaded start l d) (hframe : d.SameFrame d') : Loaded start l d' where
  dialect := hframe.dialect.trans h.dialect
  generatedKeys := hframe.generatedKeys.trans h.generatedKeys
  engine := hframe.engine.trans h.engine
  fragments := by
    rw [hframe.fragments]
    exact h.fragments

/-- What waits makes no difference. -/
theorem Loaded.setPending (h : Loaded start l d) (waiting : List Declaration) :
    Loaded start l { d with pending := waiting } :=
  ⟨h.dialect, h.generatedKeys, h.engine, h.fragments⟩

/-- An element that is no fragment, or none that applies, makes no difference. -/
theorem Loaded.pass (h : Loaded start l d) {x : Declaration}
    (hx : ¬ (x.element.name = "sql" ∧ Applies start.dialect x.dialect)) :
    Loaded start (l ++ [x]) d where
  dialect := h.dialect
  generatedKeys := h.generatedKeys
  engine := h.engine
  fragments id dialect fragment := by
    rw [h.fragments, declares_append, declares_singleton]
    refine and_congr_right fun happly => (or_iff_left ?_).symm
    rintro ⟨hname, -, rfl, -⟩
    exact hx ⟨hname, happly⟩

/-- A fragment is known once it is registered, if its dialect applies. -/
theorem Loaded.placeFragment (h : Loaded start l d) {x : Declaration} {id : String}
    (hname : x.element.name = "sql") (hid : x.fragmentId = .ok id)
    (hfree : d.FragmentFree id x.dialect) :
    Loaded start (l ++ [x]) (d.placeFragment id x.dialect x.element) where
  dialect := by rw [toCatalog_placeFragment, h.dialect]
  generatedKeys := by rw [toCatalog_placeFragment, h.generatedKeys]
  engine := by rw [toCatalog_placeFragment, h.engine]
  fragments id' dialect fragment := by
    rw [variant?_placeFragment, declares_append, declares_singleton]
    split
    · rename_i hplace
      obtain ⟨happly, rfl, rfl⟩ := hplace
      have hnone : ¬ Declares l id x.dialect fragment := fun hdeclares => by
        have hsome := (h.fragments _ _ _).2 ⟨h.dialect ▸ happly, hdeclares⟩
        rw [hfree happly] at hsome
        cases hsome
      rw [Option.some.injEq]
      constructor
      · rintro rfl
        exact ⟨h.dialect ▸ happly, Or.inr ⟨hname, hid, rfl, rfl⟩⟩
      · rintro ⟨-, hdeclares | ⟨-, -, -, rfl⟩⟩
        · exact absurd hdeclares hnone
        · rfl
    · rename_i hplace
      rw [h.fragments]
      refine and_congr_right fun happly => (or_iff_left ?_).symm
      rintro ⟨-, hid', rfl, -⟩
      exact hplace ⟨h.dialect ▸ happly, Except.ok.inj (hid.symm.trans hid'), rfl⟩

theorem Loaded.fragment (h : Loaded start l d) {space : String} {e : Element} {u : Unit}
    (hname : e.name = "sql") (hrun : Loading.fragment space e d = (.ok u, d')) :
    Loaded start (l ++ [⟨space, e⟩]) d' ∧ d'.toCatalog = d.toCatalog ∧ d'.pending = d.pending := by
  obtain ⟨id, hid, hfree, rfl⟩ := Loading.fragment_eq_ok_iff.1 hrun
  exact ⟨h.placeFragment (x := ⟨space, e⟩) hname hid hfree, toCatalog_placeFragment ..,
    pending_placeFragment ..⟩

/-- All fragments of a document are registered at once, and nothing else is. -/
theorem Loaded.fragments_run (space : String) (elements : List Element) {u : Unit}
    (h : Loaded start l d) (hrun : Loading.fragments space elements d = (.ok u, d')) :
    Loaded start (l ++ elements.map (Declaration.mk space)) d' ∧
      d'.toCatalog = d.toCatalog ∧ d'.pending = d.pending := by
  induction elements generalizing d l with
  | nil =>
    obtain rfl := (Prod.mk.inj hrun).2
    rw [List.map_nil, List.append_nil]
    exact ⟨h, rfl, rfl⟩
  | cons e rest ih =>
    rw [List.map_cons, List.append_cons]
    rw [Loading.fragments] at hrun
    split at hrun
    · rename_i hname
      obtain ⟨v, m, hfirst, hrest⟩ := exists_of_bind_apply_eq_ok hrun
      obtain ⟨hm, hcatalog, hpending⟩ := h.fragment hname hfirst
      obtain ⟨hd', hcatalog', hpending'⟩ := ih hm hrest
      exact ⟨hd', hcatalog'.trans hcatalog, hpending'.trans hpending⟩
    · rename_i hname
      exact ih (h.pass fun hx => hname hx.1) hrun

end Draft

/-! ### The account of statements -/

/-- Elements that wait, and others with the statements that they came to, are together all the
elements of some documents that apply. A catalog has the latter, behind their key statements, and
nothing else. Each was compiled with the fragments of the first few documents. -/
structure Account (start : Draft) (docs : List Document) (waiting : List Declaration) (c : Catalog)
    (done : List (Declaration × Statement)) : Prop where
  sound : c.Sound
  mem_registered : ∀ t, t ∈ c.registered ↔ ∃ p ∈ done, t ∈ p.2.withKey
  distinct : (done.flatMap (·.2.withKey)).Pairwise fun t u => (t.id, t.dialect) ≠ (u.id, u.dialect)
  counted : (done.map Prod.fst ++ waiting.filter fun x => x.Applicable start.dialect).Perm
    (Document.applicable start.dialect docs)
  compiled : ∀ p ∈ done, ∃ earlier d, earlier <+: docs ∧
    Draft.Loaded start (Document.declared earlier) d ∧ p.1.Compiles d p.2

namespace Account

variable {start d d' : Draft} {docs earlier : List Document} {waiting waiting' : List Declaration}
  {c : Catalog} {done : List (Declaration × Statement)} {x : Declaration}

theorem perm (h : Account start docs waiting c done) (hperm : waiting.Perm waiting') :
    Account start docs waiting' c done where
  sound := h.sound
  mem_registered := h.mem_registered
  distinct := h.distinct
  counted := ((hperm.filter _).symm.append_left _).trans h.counted
  compiled := h.compiled

/-- What does not apply need not wait. -/
theorem pass (h : Account start docs (x :: waiting) c done)
    (hx : ¬ x.Applicable start.dialect) : Account start docs waiting c done where
  sound := h.sound
  mem_registered := h.mem_registered
  distinct := h.distinct
  counted := by
    have hcounted := h.counted
    rwa [List.filter_cons_of_neg (by simpa using hx)] at hcounted
  compiled := h.compiled

/-- A statement that is registered in free places no longer waits. -/
theorem insert {s : Statement} (h : Account start docs (x :: waiting) d.toCatalog done)
    (hd : Draft.Loaded start (Document.declared earlier) d) (hearlier : earlier <+: docs)
    (hx : x.Applicable start.dialect) (hs : x.Compiles d s)
    (hfree : ∀ t ∈ s.withKey, d.statements.variant? t.id t.dialect = none) :
    Account start docs waiting (d.insertAll s.withKey).toCatalog (done ++ [(x, s)]) where
  sound := Draft.sound_insertAll h.sound s.withKey
  mem_registered t := by
    rw [Draft.mem_registered_insertAll hs.ownsKey.pairwise hfree, h.mem_registered]
    simp only [List.mem_append, List.mem_singleton, or_and_right, exists_or, exists_eq_left]
  distinct := by
    rw [List.flatMap_append, List.flatMap_singleton]
    refine List.pairwise_append.2 ⟨h.distinct, hs.ownsKey.pairwise, fun t ht u hu heq => ?_⟩
    obtain ⟨hid, hdialect⟩ := Prod.mk.inj heq
    have hold : d.statements.variant? t.id t.dialect = some t := by
      obtain ⟨p, hp, htp⟩ := List.mem_flatMap.1 ht
      exact (h.mem_registered t).2 ⟨p, hp, htp⟩
    rw [hid, hdialect, hfree u hu] at hold
    cases hold
  counted := by
    have hcounted := h.counted
    rw [List.filter_cons_of_pos (by simpa using hx)] at hcounted
    simpa using hcounted
  compiled := by
    rintro p hp
    rcases List.mem_append.1 hp with hp | hp
    · exact h.compiled p hp
    · rw [List.mem_singleton.1 hp]
      exact ⟨earlier, d, hearlier, hd, hs⟩

/-- A registration takes one element from those that wait. -/
theorem register {result : Option Statement}
    (h : Account start docs (x :: waiting) d.toCatalog done)
    (hd : Draft.Loaded start (Document.declared earlier) d) (hearlier : earlier <+: docs)
    (hrun : Registration.register x.space x.element d = (.ok result, d')) :
    d.SameFrame d' ∧ ∃ done', Account start docs waiting d'.toCatalog done' := by
  rcases Registration.register_cases x.space x.element d with ⟨failure, hcase⟩ |
    ⟨hforeign, hcase⟩ | ⟨command, id, s, hheading, happly, hprepare, hfree, hcase⟩
  · rw [hcase] at hrun
    cases (Prod.mk.inj hrun).1
  · rw [hcase] at hrun
    obtain rfl := (Prod.mk.inj hrun).2
    rw [hd.dialect] at hforeign
    exact ⟨⟨rfl, rfl, rfl, rfl, rfl⟩, done, h.pass fun hx => hforeign hx.2⟩
  · rw [hcase] at hrun
    obtain rfl := (Prod.mk.inj hrun).2
    rw [hd.dialect] at happly
    obtain ⟨rfl, -, -⟩ := Registration.of_prepare hprepare
    have hx : x.Applicable start.dialect := ⟨Registration.isSome_of_heading hheading, happly⟩
    exact ⟨d.sameFrame_insertAll _, _,
      h.insert hd hearlier hx ⟨command, hheading, hprepare⟩ hfree⟩

end Account

/-! ### Runs -/

namespace Loading

/-- A statement element is registered, or it waits. -/
theorem statement_cases {n : Nat} {space : String} {e : Element} {d d' : Draft}
    (hrun : statement space e d = (.ok n, d')) :
    (∃ result, Registration.register space e d = (.ok result, d')) ∨
      (∃ failure, Registration.register space e d = (.error failure, d)) ∧
        d' = { d with pending := d.pending ++ [⟨space, e⟩] } := by
  rw [statement] at hrun
  split at hrun
  · rename_i s m hregister
    exact Or.inl ⟨some s, by rw [hregister, (Prod.mk.inj hrun).2]⟩
  · rename_i m hregister
    exact Or.inl ⟨none, by rw [hregister, (Prod.mk.inj hrun).2]⟩
  · rename_i reference m hregister
    obtain rfl := Registration.eq_of_register_eq_error hregister
    exact Or.inr ⟨⟨_, hregister⟩, (Prod.mk.inj hrun).2.symm⟩
  · cases (Prod.mk.inj hrun).1

end Loading

/-- The first few of some documents are loaded into a draft. The account has what waits there, and
some elements that are to come. -/
structure Progress (start : Draft) (docs earlier : List Document) (later : List Declaration)
    (d : Draft) : Prop where
  loaded : Draft.Loaded start (Document.declared earlier) d
  earlier_prefix : earlier <+: docs
  account : ∃ done, Account start docs (d.pending ++ later) d.toCatalog done

namespace Progress

variable {start d d' : Draft} {docs earlier rest : List Document} {later : List Declaration}

/-- A statement element is registered, passed over, or left to wait. -/
theorem statement {space : String} {e : Element} {n : Nat}
    (h : Progress start docs earlier (⟨space, e⟩ :: later) d)
    (hrun : Loading.statement space e d = (.ok n, d')) : Progress start docs earlier later d' := by
  obtain ⟨done, haccount⟩ := h.account
  have hnext : Account start docs (⟨space, e⟩ :: (d.pending ++ later)) d.toCatalog done :=
    haccount.perm List.perm_middle
  rcases Loading.statement_cases hrun with ⟨result, hresult⟩ | ⟨-, rfl⟩
  · obtain ⟨hframe, done', haccount'⟩ :=
      hnext.register (x := ⟨space, e⟩) h.loaded h.earlier_prefix hresult
    refine ⟨h.loaded.sameFrame hframe, h.earlier_prefix, done', ?_⟩
    rwa [hframe.pending]
  · refine ⟨h.loaded.setPending _, h.earlier_prefix, done, hnext.perm ?_⟩
    rw [List.append_assoc]
    exact List.perm_middle.symm

/-- An element that does not apply makes no difference. -/
theorem pass {x : Declaration} (h : Progress start docs earlier (x :: later) d)
    (hx : ¬ x.Applicable start.dialect) : Progress start docs earlier later d := by
  obtain ⟨done, haccount⟩ := h.account
  have hnext : Account start docs (x :: (d.pending ++ later)) d.toCatalog done :=
    haccount.perm List.perm_middle
  exact ⟨h.loaded, h.earlier_prefix, done, hnext.pass hx⟩

theorem statements {space : String} {elements : List Element} {n : Nat}
    (h : Progress start docs earlier (elements.map (Declaration.mk space) ++ later) d)
    (hrun : Loading.statements space elements d = (.ok n, d')) :
    Progress start docs earlier later d' := by
  induction elements generalizing d n with
  | nil =>
    obtain rfl := (Prod.mk.inj hrun).2
    exact h
  | cons e rest ih =>
    rw [Loading.statements] at hrun
    -- Either way, what is counted first makes no difference to the elements that follow.
    have hrest {first : Nat} {m : Draft}
        (hm : Progress start docs earlier (rest.map (Declaration.mk space) ++ later) m)
        (hlast : (Loading.statements space rest >>= fun others => pure (first + others)) m =
          (.ok n, d')) : Progress start docs earlier later d' := by
      obtain ⟨others, m', hothers, hlast⟩ := exists_of_bind_apply_eq_ok hlast
      obtain rfl := (Prod.mk.inj hlast).2
      exact ih hm hothers
    split at hrun
    · obtain ⟨first, m, hfirst, hlast⟩ := exists_of_bind_apply_eq_ok hrun
      exact hrest (h.statement hfirst) hlast
    · rename_i hname
      exact hrest (h.pass fun hx => hname hx.1) hrun

/-- A document is loaded: first its fragments are registered, and then its statements. -/
theorem document {doc : Document} {n : Nat} (hdocs : earlier ++ [doc] <+: docs)
    (h : Progress start docs earlier (doc.declarations ++ later) d)
    (hrun : Loading.document doc.source doc.resource d = (.ok n, d')) :
    Progress start docs (earlier ++ [doc]) later d' := by
  obtain ⟨space, elements, hcontent⟩ := Loading.content_of_document hrun
  rw [Loading.document_apply hcontent] at hrun
  obtain ⟨u, m, hfragments, hrun⟩ := exists_of_bind_apply_eq_ok hrun
  have hdeclarations : doc.declarations = elements.map (Declaration.mk space) := by
    rw [Document.declarations, hcontent]
  obtain ⟨hloaded, hcatalog, hpending⟩ := h.loaded.fragments_run space elements hfragments
  have hm : Progress start docs (earlier ++ [doc])
      (elements.map (Declaration.mk space) ++ later) m := by
    refine ⟨?_, hdocs, ?_⟩
    · rwa [Document.declared, List.flatMap_append, List.flatMap_singleton, hdeclarations]
    · rw [hcatalog, hpending, ← hdeclarations]
      exact h.account
  exact hm.statements hrun

theorem documents {u : Unit} (hdocs : earlier ++ rest = docs)
    (h : Progress start docs earlier (Document.declared rest) d)
    (hrun : Loading.documents rest d = (.ok u, d')) : Progress start docs docs [] d' := by
  induction rest generalizing d earlier with
  | nil =>
    obtain rfl := (Prod.mk.inj hrun).2
    rw [List.append_nil] at hdocs
    rwa [hdocs] at h
  | cons doc rest ih =>
    rw [Loading.documents] at hrun
    obtain ⟨n, m, hfirst, hrun⟩ := exists_of_bind_apply_eq_ok hrun
    rw [List.append_cons] at hdocs
    have hprefix : earlier ++ [doc] <+: docs := ⟨rest, hdocs⟩
    refine ih hdocs ?_ hrun
    refine document hprefix ?_ hfirst
    rwa [Document.declared, List.flatMap_cons] at h

end Progress

/-- All that waits is registered in the end. -/
theorem Account.pending {start d d' : Draft} {docs : List Document} {waiting : List Declaration}
    {done : List (Declaration × Statement)} {u : Unit}
    (h : Account start docs waiting d.toCatalog done)
    (hd : Draft.Loaded start (Document.declared docs) d)
    (hrun : Loading.pending waiting d = (.ok u, d')) :
    Draft.Loaded start (Document.declared docs) d' ∧
      ∃ done', Account start docs [] d'.toCatalog done' := by
  induction waiting generalizing d done with
  | nil =>
    obtain rfl := (Prod.mk.inj hrun).2
    exact ⟨hd, done, h⟩
  | cons x rest ih =>
    rw [Loading.pending] at hrun
    obtain ⟨result, m, hfirst, hrun⟩ := exists_of_bind_apply_eq_ok hrun
    obtain ⟨hframe, done', h'⟩ := h.register hd List.prefix_rfl hfirst
    exact ih h' (hd.sameFrame hframe) hrun

namespace Draft

variable {dialect : Option String} {generatedKeys : Bool} {engine : Engine} {docs : List Document}
  {c : Catalog}

/-- The account of a complete catalog has no element that waits. The last draft has the fragments of
all documents. -/
theorem exists_account (hrun : configure { dialect, generatedKeys, engine } docs = .ok c) :
    ∃ d done, d.toCatalog = c ∧
      Loaded { dialect, generatedKeys, engine } (Document.declared docs) d ∧
      Account { dialect, generatedKeys, engine } docs [] c done := by
  have hstart : Progress { dialect, generatedKeys, engine } docs [] (Document.declared docs)
      { dialect, generatedKeys, engine } := by
    refine ⟨⟨rfl, rfl, rfl, fun id dialect' fragment => ?_⟩, List.nil_prefix, [],
      ⟨Catalog.sound_empty rfl rfl, fun t => ?_, List.Pairwise.nil, List.Perm.rfl, ?_⟩⟩
    · simp [Declares, Document.declared]
    · exact ⟨fun ht => (nomatch ht), fun ⟨_, hp, _⟩ => nomatch hp⟩
    · exact fun p hp => nomatch hp
  rw [configure] at hrun
  split at hrun
  · rename_i d hdocuments
    have hd := Progress.documents (List.nil_append docs) hstart hdocuments
    obtain ⟨done, haccount⟩ := hd.account
    rw [List.append_nil] at haccount
    rw [build] at hrun
    split at hrun
    · rename_i m hpending
      obtain rfl := Except.ok.inj hrun
      obtain ⟨hm, done', haccount'⟩ := Account.pending (d := { d with pending := [] }) haccount
        (hd.loaded.setPending []) hpending
      exact ⟨m, done', rfl, hm, haccount'⟩
    · cases hrun
  · cases hrun

end Draft

/-! ### The statements of a complete catalog -/

/-- The statements that were registered for the generators of others. -/
def Catalog.keyStatements (c : Catalog) : Set Statement :=
  {t | ∃ s ∈ c.registered, ∃ key before, s.keys = .selected key before ∧
    t = { toDefinition := key }}

namespace Account

variable {start : Draft} {docs : List Document} {c : Catalog}
  {done : List (Declaration × Statement)}

/-- What an element came to is found where its heading says. -/
theorem place?_eq (h : Account start docs [] c done) {p : Declaration × Statement} (hp : p ∈ done) :
    p.1.place? = some (p.2.id, p.2.dialect) := by
  obtain ⟨-, d, -, -, hcompiles⟩ := h.compiled p hp
  exact hcompiles.place?_eq

theorem counted_of_complete (h : Account start docs [] c done) :
    (done.map Prod.fst).Perm (Document.applicable start.dialect docs) := by
  have hcounted := h.counted
  rwa [List.filter_nil, List.append_nil] at hcounted

/-- The places of the elements are those of the statements that they came to. -/
theorem places_perm (h : Account start docs [] c done) :
    (done.map fun p => (p.2.id, p.2.dialect)).Perm (Document.places start.dialect docs) := by
  have hplaces := h.counted_of_complete.filterMap Declaration.place?
  have hsame : (done.map Prod.fst).filterMap Declaration.place? =
      done.map fun p => (p.2.id, p.2.dialect) := by
    rw [List.filterMap_map, ← List.filterMap_eq_map]
    exact List.filterMap_congr fun p hp => h.place?_eq hp
  rwa [hsame] at hplaces

theorem self_mem_registered (h : Account start docs [] c done) {p : Declaration × Statement}
    (hp : p ∈ done) : p.2 ∈ c.registered :=
  (h.mem_registered p.2).2 ⟨p, hp, p.2.self_mem_withKey⟩

/-- The key statements are those of the statements that elements came to. -/
theorem mem_keyStatements (h : Account start docs [] c done) {t : Statement} :
    t ∈ c.keyStatements ↔ ∃ p ∈ done, ∃ key before, p.2.keys = .selected key before ∧
      t = { toDefinition := key } := by
  constructor
  · rintro ⟨s, hs, key, before, hkeys, rfl⟩
    obtain ⟨p, hp, hsp⟩ := (h.mem_registered s).1 hs
    rcases Statement.mem_withKey.1 hsp with rfl | ⟨key', before', -, rfl⟩
    · exact ⟨p, hp, key, before, hkeys, rfl⟩
    · cases hkeys
  · rintro ⟨p, hp, key, before, hkeys, rfl⟩
    exact ⟨p.2, h.self_mem_registered hp, key, before, hkeys, rfl⟩

/-- The registered statements are those that elements came to, and beside them the key
statements. -/
theorem mem_registered_iff (h : Account start docs [] c done) {t : Statement} :
    t ∈ c.registered ↔ t ∈ c.keyStatements ∨ ∃ p ∈ done, t = p.2 := by
  rw [h.mem_registered, h.mem_keyStatements, ← exists_or]
  refine exists_congr fun p => ?_
  rw [← and_or_left, Statement.mem_withKey, or_comm]

/-- What an element came to is no key statement. -/
theorem not_mem_keyStatements (h : Account start docs [] c done) {p : Declaration × Statement}
    (hp : p ∈ done) : p.2 ∉ c.keyStatements := by
  rw [h.mem_keyStatements]
  rintro ⟨q, hq, key, before, hkeys, heq⟩
  have hmem : p.2 ∈ q.2.withKey := Statement.mem_withKey.2 (Or.inr ⟨key, before, hkeys, heq⟩)
  obtain rfl | hne := eq_or_ne p q
  · rw [heq] at hkeys
    cases hkeys
  · obtain ⟨-, hdistinct⟩ := List.pairwise_flatMap.1 h.distinct
    have hsymm : Std.Symm fun (p q : Declaration × Statement) =>
        ∀ t ∈ p.2.withKey, ∀ u ∈ q.2.withKey, (t.id, t.dialect) ≠ (u.id, u.dialect) :=
      ⟨fun p q hpq t ht u hu => (hpq u hu t ht).symm⟩
    exact hdistinct.forall hp hq hne p.2 p.2.self_mem_withKey p.2 hmem rfl

theorem places_nodup (h : Account start docs [] c done) :
    (Document.places start.dialect docs).Nodup := by
  obtain ⟨-, hdistinct⟩ := List.pairwise_flatMap.1 h.distinct
  rw [← h.places_perm.nodup_iff]
  exact List.pairwise_map.2
    (hdistinct.imp fun hpq => hpq _ (Statement.self_mem_withKey _) _ (Statement.self_mem_withKey _))

end Account

/-- Where documents are loaded into an empty draft, and the catalog is completed, no statement is
lost and none is registered twice, whether it had to wait for a fragment or not. Every statement
element whose dialect applies has an id that is allowed; no two of them have one id and one dialect;
and the catalog has a statement for each, and no others but the key statements, which are those that
the generators of registered statements refer to. -/
theorem Draft.configure_places {dialect : Option String} {generatedKeys : Bool} {engine : Engine}
    {docs : List Document} {c : Catalog}
    (hrun : configure { dialect, generatedKeys, engine } docs = .ok c) :
    (∀ x ∈ Document.applicable dialect docs, x.place?.isSome = true) ∧
    (Document.places dialect docs).Nodup ∧
    c.keyStatements ⊆ c.registered ∧
    ∀ id dialect', (∃ t, c.statements.variant? id dialect' = some t ∧ t ∉ c.keyStatements) ↔
      (id, dialect') ∈ Document.places dialect docs := by
  obtain ⟨-, done, -, -, haccount⟩ := exists_account hrun
  refine ⟨fun x hx => ?_, haccount.places_nodup,
    fun t ht => haccount.mem_registered_iff.2 (Or.inl ht), fun id dialect' => ?_⟩
  · obtain ⟨p, hp, rfl⟩ := List.mem_map.1 (haccount.counted_of_complete.mem_iff.2 hx)
    rw [haccount.place?_eq hp]
    rfl
  · rw [← haccount.places_perm.mem_iff, List.mem_map]
    constructor
    · rintro ⟨t, ht, hkey⟩
      obtain ⟨hmem, rfl, rfl⟩ := haccount.sound.variant?_eq_some_iff.1 ht
      obtain ⟨p, hp, rfl⟩ := (haccount.mem_registered_iff.1 hmem).resolve_left hkey
      exact ⟨p, hp, rfl⟩
    · rintro ⟨p, hp, hplace⟩
      obtain ⟨rfl, rfl⟩ := Prod.mk.inj hplace
      exact ⟨p.2, haccount.self_mem_registered hp, haccount.not_mem_keyStatements hp⟩

namespace deferring

/-- An insert whose key is selected by a statement that includes a fragment. -/
def insert : Element where
  name := "insert"
  attributes := [("id", "f")]
  children := [.element "selectKey" [] [.element "include" [("refid", "b.c")] []], .text "i"]

/-- The fragment. -/
def fragment : Element where
  name := "sql"
  attributes := [("id", "c")]
  children := [.text "t"]

/-- The document of the insert, which has to wait. -/
def first : Document where
  source := "<mapper namespace=\"a\"><insert id=\"f\"><selectKey>" ++
    "<include refid=\"b.c\"></include></selectKey>i</insert></mapper>"
  resource := "a.xml"

/-- The document of the fragment. -/
def second : Document where
  source := "<mapper namespace=\"b\"><sql id=\"c\">t</sql></mapper>"
  resource := "b.xml"

theorem content_first : Loading.content first.source first.resource = .ok ("a", [insert]) :=
  Loading.content_write (by decide) (by decide) (by decide)

theorem content_second : Loading.content second.source second.resource = .ok ("b", [fragment]) :=
  Loading.content_write (by decide) (by decide) (by decide)

theorem declared_eq :
    Document.declared [first, second] = [⟨"a", insert⟩, ⟨"b", fragment⟩] := by
  simp only [Document.declared, List.flatMap_cons, List.flatMap_nil, Document.declarations,
    content_first, content_second]
  rfl

set_option maxRecDepth 20000 in
theorem configure_ok :
    (Draft.configure { dialect := some "h2" } [first, second]).toBool = true := by
  simp only [Draft.configure, Loading.documents, bind_apply, Loading.document_apply content_first,
    Loading.document_apply content_second]
  cbv

end deferring

open deferring in
/-- An insert that waits for a fragment is registered in the end, with its key statement. -/
theorem Draft.configure_places_deferring :
    ∃ c, configure { dialect := some "h2" } [first, second] = .ok c ∧
      Document.places (some "h2") [first, second] = [("a.f", none)] ∧
      (∃ t, c.statements.variant? "a.f" none = some t ∧ t ∉ c.keyStatements) ∧
      ∀ t, c.statements.variant? "a.f!selectKey" none = some t → t ∈ c.keyStatements := by
  have hplaces : Document.places (some "h2") [first, second] = [("a.f", none)] := by
    rw [Document.places, Document.applicable, declared_eq]
    cbv
  obtain ⟨c, hrun⟩ := exists_of_toBool configure_ok
  obtain ⟨-, -, -, hentries⟩ := configure_places hrun
  rw [hplaces] at hentries
  refine ⟨c, hrun, hplaces, (hentries _ _).2 List.mem_cons_self, fun t ht => ?_⟩
  by_contra hkey
  have hmem := (hentries _ _).1 ⟨t, ht, hkey⟩
  revert hmem
  decide

end SqlTemplate
