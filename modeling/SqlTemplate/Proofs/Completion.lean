import SqlTemplate.Proofs.ForeignDialects
import SqlTemplate.Proofs.LoadOrder

/-!
# Completion of a catalog

What becomes of a draft in the end is decided by its fragments and by the statement elements that
are registered, and not by their order. Every element comes to statements of its own, whatever else
is registered (`Declaration.Yields`); a run of registrations succeeds where each element comes to
some and there is room for all of them together (`Loading.completes_iff`), and this can be said of
the elements in any order.

A statement element of a document is registered when the document is loaded, or it waits until the
draft is completed. The fragments are the same then, so that what had to wait fails again: a
document that loads, and is followed by a completion, is the run of its statement elements ahead of
what waited before (`Loading.comesTo_statements_iff`).

## Main definitions

* `Draft.HasRoom` : the places of some statements are free, and no two of them have the same.
* `Declaration.Yields` : the statements that an element comes to.
* `Loading.Completes` : a run of registrations ends in a catalog.
* `Loading.ComesTo` : a step of loading, followed by the completion, ends in a catalog.
* `Catalog.Agrees` : two catalogs that no reader can tell apart.

## Main results

* `Draft.hasRoom_append` : room for some statements is room for the first and then for the others.
* `Declaration.exists_yields`, `Declaration.Yields.register` : when an element is registered.
* `Loading.completes_iff` : a run of registrations, as its elements decide.
* `Loading.Completes.perm` : the order of registrations cannot be told from the catalog.
* `Loading.comesTo_statements_iff` : what waits is registered as if it had come late.
-/

namespace SqlTemplate

/-! ### Room for statements -/

namespace Draft

variable {d d' : Draft} {l l' : List Statement}

/-- The places of some statements are free, and no two of them have the same place. -/
structure HasRoom (d : Draft) (l : List Statement) : Prop where
  distinct : l.Pairwise fun t u => (t.id, t.dialect) ≠ (u.id, u.dialect)
  free : ∀ t ∈ l, d.statements.variant? t.id t.dialect = none

theorem hasRoom_nil : d.HasRoom [] :=
  ⟨List.Pairwise.nil, List.forall_mem_nil _⟩

theorem HasRoom.perm (h : d.HasRoom l) (hperm : l.Perm l') : d.HasRoom l' where
  distinct := (hperm.pairwise_iff Ne.symm).1 h.distinct
  free t ht := h.free t (hperm.mem_iff.2 ht)

theorem HasRoom.sublist (h : d.HasRoom l) (hsub : l'.Sublist l) : d.HasRoom l' where
  distinct := h.distinct.sublist hsub
  free t ht := h.free t (hsub.subset ht)

theorem insertAll_append (d : Draft) (l l' : List Statement) :
    d.insertAll (l ++ l') = (d.insertAll l).insertAll l' :=
  List.foldl_append

theorem toCatalog_insertAll (d : Draft) (l : List Statement) :
    (d.insertAll l).toCatalog = l.foldl Catalog.insert d.toCatalog := by
  induction l generalizing d with
  | nil => rfl
  | cons s rest ih => rw [insertAll_cons, ih, toCatalog_insert, List.foldl_cons]

/-- After statements are registered, a place is free that was free before and is for none of
them. -/
theorem HasRoom.variant?_insertAll_eq_none_iff (h : d.HasRoom l) {id : String}
    {dialect : Option String} :
    (d.insertAll l).statements.variant? id dialect = none ↔
      d.statements.variant? id dialect = none ∧ ∀ t ∈ l, (t.id, t.dialect) ≠ (id, dialect) := by
  simp only [Option.eq_none_iff_forall_ne_some, ne_eq, variant?_insertAll h.distinct h.free, not_or,
    forall_and, not_and, Prod.mk.injEq]

/-- There is room for some statements where there is room for the first few, and for the others
once these are registered. -/
theorem hasRoom_append :
    d.HasRoom (l ++ l') ↔ d.HasRoom l ∧ (d.insertAll l).HasRoom l' := by
  constructor
  · intro h
    have hfirst : d.HasRoom l := h.sublist (List.sublist_append_left l l')
    obtain ⟨-, hdistinct, hcross⟩ := List.pairwise_append.1 h.distinct
    refine ⟨hfirst, hdistinct, fun u hu => ?_⟩
    rw [hfirst.variant?_insertAll_eq_none_iff]
    exact ⟨h.free u (List.mem_append_right l hu), fun t ht => hcross t ht u hu⟩
  · rintro ⟨hfirst, hrest⟩
    have hfree (u : Statement) (hu : u ∈ l') :=
      hfirst.variant?_insertAll_eq_none_iff.1 (hrest.free u hu)
    refine ⟨List.pairwise_append.2 ⟨hfirst.distinct, hrest.distinct, fun t ht u hu =>
      (hfree u hu).2 t ht⟩, fun t ht => ?_⟩
    rcases List.mem_append.1 ht with ht | ht
    · exact hfirst.free t ht
    · exact (hfree t ht).1

theorem SameFrame.symm (h : d.SameFrame d') : d'.SameFrame d :=
  ⟨h.dialect.symm, h.generatedKeys.symm, h.engine.symm, h.fragments.symm, h.pending.symm⟩

theorem SameFrame.extends (h : d.SameFrame d') : d.Extends d' where
  dialect := h.dialect
  generatedKeys := h.generatedKeys
  engine := h.engine
  fragment? id fragment hfragment := by rwa [fragment?, h.fragments, h.dialect]

end Draft

/-! ### What an element comes to -/

namespace Declaration

/-- The statements that an element comes to: none, where its dialect does not apply, and else a
statement behind its key statement. -/
inductive Yields (x : Declaration) (d : Draft) : List Statement → Prop
  /-- The element is passed over once its heading is read. -/
  | foreign {command : Command} {id : String}
      (hheading : Registration.heading x.space x.element = .ok (command, id))
      (happly : ¬ Applies d.dialect x.dialect) :
    Yields x d []
  /-- The element is compiled. -/
  | native {s : Statement} (happly : Applies d.dialect x.dialect) (hcompiles : x.Compiles d s) :
    Yields x d s.withKey

variable {x : Declaration} {d d' : Draft} {l : List Statement}

theorem Yields.extend (h : x.Yields d l) (hd : d.Extends d') : x.Yields d' l := by
  cases h with
  | foreign hheading happly => exact .foreign hheading (hd.dialect ▸ happly)
  | native happly hcompiles => exact .native (hd.dialect ▸ happly) (hcompiles.extend hd)

/-- An element that is registered came to statements for which there was room. -/
theorem exists_yields {result : Option Statement}
    (hrun : Registration.register x.space x.element d = (.ok result, d')) :
    ∃ l, x.Yields d l ∧ d.HasRoom l ∧ d' = d.insertAll l := by
  rcases Registration.register_cases x.space x.element d with ⟨failure, hcase⟩ |
    ⟨happly, hcase⟩ | ⟨command, id, s, hheading, happly, hprepare, hfree, hcase⟩
  · rw [hcase] at hrun
    cases (Prod.mk.inj hrun).1
  · have hstay : d' = d := (Prod.mk.inj (hrun.symm.trans hcase)).2
    rw [Registration.register_apply] at hrun
    cases hheading : Registration.heading x.space x.element with
    | error failure =>
      rw [hheading] at hrun
      cases (Prod.mk.inj hrun).1
    | ok pair =>
      exact ⟨[], .foreign hheading happly, Draft.hasRoom_nil, hstay⟩
  · rw [hcase] at hrun
    obtain ⟨rfl, -, hkey⟩ := Registration.of_prepare hprepare
    exact ⟨s.withKey, .native happly ⟨command, hheading, hprepare⟩, ⟨hkey.pairwise, hfree⟩,
      (Prod.mk.inj hrun).2.symm⟩

/-- An element is registered where it comes to statements for which there is room. -/
theorem Yields.register (h : x.Yields d l) (hroom : d.HasRoom l) :
    ∃ result, Registration.register x.space x.element d = (.ok result, d.insertAll l) := by
  rw [Registration.register_apply]
  cases h with
  | foreign hheading happly =>
    rw [dialect] at happly
    rw [hheading]
    dsimp only
    rw [Catalog.admits_eq, if_pos happly]
    exact ⟨none, rfl⟩
  | @native s happly hcompiles =>
    obtain ⟨command, hheading, hprepare⟩ := hcompiles
    obtain ⟨-, hdialect, hkey⟩ := Registration.of_prepare hprepare
    have hfree := hroom.free s s.self_mem_withKey
    rw [dialect, ← hdialect] at happly
    rw [hheading]
    dsimp only
    rw [← hdialect, Catalog.admits_eq, if_neg (not_not.2 happly), hfree, Option.isSome_none,
      if_neg Bool.false_ne_true]
    dsimp only
    rw [hprepare]
    rcases Registration.publish_cases hkey happly hfree with ⟨⟨t, ht, hsome⟩, -⟩ | ⟨-, hpublish⟩
    · rw [hroom.free t ht] at hsome
      cases hsome
    · exact ⟨some s, hpublish⟩

theorem sameFrame_of_register {result : Option Statement}
    (h : Registration.register x.space x.element d = (.ok result, d')) : d.SameFrame d' := by
  obtain ⟨l, -, -, rfl⟩ := exists_yields h
  exact d.sameFrame_insertAll l

end Declaration

/-! ### Catalogs that agree -/

namespace Catalog

variable {c c' : Catalog}

/-- Two catalogs that no reader can tell apart. They have the same settings and the same statements,
with all that belongs to these; the same ids are listed, every name is found or missed alike, and
every parameter is bound alike. -/
structure Agrees (c c' : Catalog) : Prop where
  dialect : c.dialect = c'.dialect
  generatedKeys : c.generatedKeys = c'.generatedKeys
  engine : c.engine = c'.engine
  statements : c.statements = c'.statements
  ids : c.ids = c'.ids
  listing : c.listing = c'.listing
  statementFor : ∀ name dialect, c.statementFor name dialect = c'.statementFor name dialect
  bind : ∀ name parameter, c.bind name parameter = c'.bind name parameter

/-- Sound catalogs of the same statements agree, in whatever order these were registered. -/
theorem Sound.agrees (h : c.Sound) (h' : c'.Sound) (hdialect : c.dialect = c'.dialect)
    (hkeys : c.generatedKeys = c'.generatedKeys) (hengine : c.engine = c'.engine)
    (hregistered : c.registered = c'.registered) : c.Agrees c' := by
  have hstatements := h.statements_eq h' hregistered
  have hlookup (name : String) (dialect : Option String) :
      c.statementFor name dialect = c'.statementFor name dialect := by
    refine h.statementFor_eq_iff.2 ?_
    rw [hregistered]
    exact h'.statementFor_eq_iff.1 rfl
  refine ⟨hdialect, hkeys, hengine, hstatements, ?_, ?_, hlookup, fun name parameter => ?_⟩
  · rw [ids, hstatements, ← ids]
  · rw [listing, hstatements, ← listing]
  · rw [bind, bind, statement, statement, hlookup, hdialect, hengine]

end Catalog

namespace Loading

/-! ### Runs of registrations -/

/-- From a draft, the registration of some elements, one after another, ends in a catalog. -/
def Completes (l : List Declaration) (d : Draft) (c : Catalog) : Prop :=
  ∃ d', pending l d = (.ok (), d') ∧ d'.toCatalog = c

variable {x : Declaration} {l l' : List Declaration} {d d' : Draft} {c : Catalog}

theorem completes_cons :
    Completes (x :: l) d c ↔
      ∃ result m, Registration.register x.space x.element d = (.ok result, m) ∧
        Completes l m c := by
  constructor
  · rintro ⟨d', hrun, hcatalog⟩
    obtain ⟨result, m, hfirst, hrest⟩ := exists_of_bind_apply_eq_ok hrun
    exact ⟨result, m, hfirst, d', hrest, hcatalog⟩
  · rintro ⟨result, m, hfirst, d', hrest, hcatalog⟩
    refine ⟨d', ?_, hcatalog⟩
    rw [pending, bind_apply, hfirst]
    exact hrest

/-- A run of registrations succeeds where each element comes to statements and there is room for all
of them. It is decided beforehand to what an element comes, as no registration changes the
fragments. -/
theorem completes_iff :
    Completes l d c ↔ ∃ groups, List.Forall₂ (fun x => x.Yields d) l groups ∧
      d.HasRoom groups.flatten ∧ (d.insertAll groups.flatten).toCatalog = c := by
  induction l generalizing d with
  | nil =>
    constructor
    · rintro ⟨d', hrun, rfl⟩
      obtain rfl := (Prod.mk.inj hrun).2
      exact ⟨[], .nil, Draft.hasRoom_nil, rfl⟩
    · rintro ⟨groups, hyields, -, rfl⟩
      obtain rfl := List.forall₂_nil_left_iff.1 hyields
      exact ⟨d, rfl, rfl⟩
  | cons x rest ih =>
    rw [completes_cons]
    constructor
    · rintro ⟨result, m, hfirst, hrest⟩
      obtain ⟨group, hgroup, hroom, rfl⟩ := Declaration.exists_yields hfirst
      obtain ⟨groups, hyields, hroom', rfl⟩ := ih.1 hrest
      have hback := (d.sameFrame_insertAll group).symm.extends
      refine ⟨group :: groups, .cons hgroup (hyields.imp fun _ _ h => h.extend hback), ?_, ?_⟩
      · exact Draft.hasRoom_append.2 ⟨hroom, hroom'⟩
      · rw [List.flatten_cons, Draft.insertAll_append]
    · rintro ⟨_, hall, hroom, rfl⟩
      obtain ⟨group, groups, hgroup, hyields, rfl⟩ := List.forall₂_cons_left_iff.1 hall
      rw [List.flatten_cons, Draft.hasRoom_append] at hroom
      obtain ⟨result, hfirst⟩ := hgroup.register hroom.1
      have hahead := (d.sameFrame_insertAll group).extends
      refine ⟨result, _, hfirst, ih.2 ⟨groups, hyields.imp fun _ _ h => h.extend hahead, hroom.2,
        ?_⟩⟩
      rw [List.flatten_cons, Draft.insertAll_append]

/-- A run of registrations ends in the same catalog from a draft that knows more. -/
theorem Completes.extend (h : Completes l d c) (hd : d.Extends d')
    (hcatalog : d'.toCatalog = d.toCatalog) : Completes l d' c := by
  obtain ⟨groups, hyields, hroom, rfl⟩ := completes_iff.1 h
  refine completes_iff.2 ⟨groups, hyields.imp fun _ _ h => h.extend hd, ⟨hroom.distinct, ?_⟩, ?_⟩
  · rw [hcatalog]
    exact hroom.free
  · rw [Draft.toCatalog_insertAll, Draft.toCatalog_insertAll, hcatalog]

/-- It makes no difference to a run of registrations which elements wait. -/
theorem completes_setPending (waiting : List Declaration) :
    Completes l { d with pending := waiting } c ↔ Completes l d c :=
  ⟨fun h => h.extend ⟨rfl, rfl, rfl, fun _ _ => id⟩ rfl,
    fun h => h.extend ⟨rfl, rfl, rfl, fun _ _ => id⟩ rfl⟩

/-- Some elements can be registered in any order. A reader cannot tell which it was. -/
theorem Completes.perm (h : Completes l d c) (hperm : l.Perm l') :
    ∃ c', Completes l' d c' ∧ (d.Sound → c.Agrees c') := by
  obtain ⟨groups, hyields, hroom, rfl⟩ := completes_iff.1 h
  obtain ⟨groups', hyields', hgroups⟩ := List.perm_comp_forall₂ hperm.symm hyields
  have hroom' : d.HasRoom groups'.flatten := hroom.perm hgroups.symm.flatten
  refine ⟨_, completes_iff.2 ⟨groups', hyields', hroom', rfl⟩, fun hd => ?_⟩
  have hframe := d.sameFrame_insertAll groups.flatten
  have hframe' := d.sameFrame_insertAll groups'.flatten
  refine (Draft.sound_insertAll hd _).agrees (Draft.sound_insertAll hd _)
    (hframe.dialect.trans hframe'.dialect.symm)
    (hframe.generatedKeys.trans hframe'.generatedKeys.symm)
    (hframe.engine.trans hframe'.engine.symm) (Set.ext fun t => ?_)
  rw [Draft.mem_registered_insertAll hroom.distinct hroom.free,
    Draft.mem_registered_insertAll hroom'.distinct hroom'.free, hgroups.flatten.mem_iff]

/-- Each element of a run could be the first. -/
theorem Completes.exists_register (h : Completes l d c) (hx : x ∈ l) :
    ∃ result m, Registration.register x.space x.element d = (.ok result, m) := by
  obtain ⟨earlier, later, rfl⟩ := List.append_of_mem hx
  obtain ⟨c', hfirst, -⟩ := h.perm List.perm_middle
  obtain ⟨result, m, hregister, -⟩ := completes_cons.1 hfirst
  exact ⟨result, m, hregister⟩

/-! ### Loading, followed by the completion -/

variable {α β : Type}

/-- From a draft, a step of loading succeeds, and so does the completion after it, with a
catalog. -/
def ComesTo (m : Loading α) (d : Draft) (c : Catalog) : Prop :=
  ∃ a d', m d = (.ok a, d') ∧ d'.build = .ok c

theorem build_eq_ok_iff : d.build = .ok c ↔ Completes d.pending d c := by
  rw [← completes_setPending [], Draft.build, Completes]
  constructor
  · intro hbuild
    split at hbuild
    · rename_i m hrun
      exact ⟨m, hrun, Except.ok.inj hbuild⟩
    · cases hbuild
  · rintro ⟨m, hrun, rfl⟩
    rw [hrun]

theorem comesTo_bind {m : Loading α} {f : α → Loading β} :
    ComesTo (m >>= f) d c ↔ ∃ a d', m d = (.ok a, d') ∧ ComesTo (f a) d' c := by
  constructor
  · rintro ⟨b, e, hrun, hbuild⟩
    obtain ⟨a, d', hfirst, hrest⟩ := exists_of_bind_apply_eq_ok hrun
    exact ⟨a, d', hfirst, b, e, hrest, hbuild⟩
  · rintro ⟨a, d', hfirst, b, e, hrest, hbuild⟩
    refine ⟨b, e, ?_, hbuild⟩
    rw [bind_apply, hfirst]
    exact hrest

/-- The result of a step of loading is no matter of the catalog. -/
theorem comesTo_bind_pure {m : Loading α} {f : α → β} :
    ComesTo (m >>= fun a => pure (f a)) d c ↔ ComesTo m d c := by
  rw [comesTo_bind]
  constructor
  · rintro ⟨a, d', hfirst, b, e, hrest, hbuild⟩
    obtain ⟨-, rfl⟩ := Prod.mk.inj hrest
    exact ⟨a, d', hfirst, hbuild⟩
  · rintro ⟨a, d', hfirst, hbuild⟩
    exact ⟨a, d', hfirst, f a, d', rfl, hbuild⟩

/-- What carries over to another step carries over to its catalog. -/
theorem Carries.comesTo {active : Option String} {m m' : Loading α} (h : Carries active m m')
    (hd : d.dialect = active) (hm : ComesTo m d c) : ComesTo m' d c := by
  obtain ⟨a, e, hrun, hbuild⟩ := hm
  obtain ⟨e', hrun', halike⟩ := h d d a e (hd ▸ .refl d) hrun
  exact ⟨a, e', hrun', halike.build_eq.trans hbuild⟩

theorem exists_statement_of_register {space : String} {e : Element} {result : Option Statement}
    (h : Registration.register space e d = (.ok result, d')) :
    ∃ n, statement space e d = (.ok n, d') := by
  rw [statement, h]
  cases result with
  | none => exact ⟨0, rfl⟩
  | some s => exact ⟨1, rfl⟩

end Loading

/-- The statement elements among some elements of a namespace. -/
def Declaration.statements (space : String) (elements : List Element) : List Declaration :=
  (elements.filter fun e => (Command.ofTag? e.name).isSome).map (Declaration.mk space)

theorem Declaration.statements_cons (space : String) (e : Element) (rest : List Element) :
    statements space (e :: rest) =
      if (Command.ofTag? e.name).isSome then ⟨space, e⟩ :: statements space rest
      else statements space rest := by
  rw [statements, List.filter_cons]
  split <;> rfl

namespace Loading

variable {d : Draft} {c : Catalog} {space : String}

/-- To load a statement element, and go on with a step after which what waits is registered last, is
to register the element first. It cannot wait: its fragments would still be missing in the end. -/
theorem comesTo_statement_bind_iff {e : Element} {rest : Nat → Loading Nat} {l : List Declaration}
    (hrest : ∀ n m, ComesTo (rest n) m c ↔ Completes (l ++ m.pending) m c) :
    ComesTo (statement space e >>= rest) d c ↔
      Completes (⟨space, e⟩ :: (l ++ d.pending)) d c := by
  rw [comesTo_bind, completes_cons]
  constructor
  · rintro ⟨n, m, hstatement, hlast⟩
    rw [hrest] at hlast
    rcases statement_cases hstatement with ⟨result, hregister⟩ | ⟨⟨failure, hfailure⟩, rfl⟩
    · rw [(Declaration.sameFrame_of_register (x := ⟨space, e⟩) hregister).pending] at hlast
      exact ⟨result, m, hregister, hlast⟩
    · rw [completes_setPending] at hlast
      obtain ⟨result, m, hregister⟩ := hlast.exists_register (x := ⟨space, e⟩) (by simp)
      rw [hfailure] at hregister
      cases (Prod.mk.inj hregister).1
  · rintro ⟨result, m, hregister, hlast⟩
    obtain ⟨n, hstatement⟩ := exists_statement_of_register hregister
    refine ⟨n, m, hstatement, (hrest n m).2 ?_⟩
    rwa [(Declaration.sameFrame_of_register (x := ⟨space, e⟩) hregister).pending]

/-- To load statement elements and complete the catalog is to register them, and after them the
elements that waited already. -/
theorem comesTo_statements_iff (elements : List Element) :
    ComesTo (statements space elements) d c ↔
      Completes (Declaration.statements space elements ++ d.pending) d c := by
  induction elements generalizing d with
  | nil =>
    rw [Declaration.statements, List.filter_nil, List.map_nil, List.nil_append, ← build_eq_ok_iff]
    constructor
    · rintro ⟨n, d', hrun, hbuild⟩
      rwa [(Prod.mk.inj hrun).2]
    · exact fun hbuild => ⟨0, d, rfl, hbuild⟩
  | cons e rest ih =>
    rw [statements_cons, Declaration.statements_cons]
    have hrest (first : Nat) (m : Draft) :
        ComesTo (statements space rest >>= fun others => pure (first + others)) m c ↔
          Completes (Declaration.statements space rest ++ m.pending) m c :=
      comesTo_bind_pure.trans ih
    by_cases hname : (Command.ofTag? e.name).isSome = true
    · rw [if_pos hname, if_pos hname, List.cons_append]
      exact comesTo_statement_bind_iff hrest
    · rw [if_neg hname, if_neg hname, pure_bind]
      exact hrest 0 d

end Loading

end SqlTemplate
