import SqlTemplate.Proofs.Registry

/-!
# Registration is all or nothing

A statement element is compiled before anything of it is registered. What is registered then is one
statement, or a key statement and after it the statement whose keys it obtains. The two are for one
dialect and have different ids, so that the second is as free to be registered after the first as
it was before; a registration that fails or passes the element over has changed nothing.

## Main definitions

* `Statement.withKey` : a statement, behind its key statement if it has one.
* `Statement.OwnsKey` : the key statement of a statement is for its dialect, under its id with the
  suffix of key statements.
* `Draft.insertAll` : statements registered one after another.
* `Draft.SameFrame` : two drafts agree but for their statements.

## Main results

* `Registration.register_cases` : the three outcomes of a registration, and the draft after each.
* `Registration.register_all_or_nothing` : a registration adds a statement with its key statement,
  or nothing.
-/

namespace SqlTemplate

/-! ### Statements and their key statements -/

namespace Statement

/-- A statement, behind the key statement of its generator if there is one. -/
def withKey (s : Statement) : List Statement :=
  match s.keys with
  | .selected key _ => [{ toDefinition := key }, s]
  | _ => [s]

/-- The key statement of a statement is for its dialect, under its id with the suffix. -/
def OwnsKey (s : Statement) : Prop :=
  ∀ key before, s.keys = .selected key before → key.id = s.id ++ keySuffix ∧ key.dialect = s.dialect

theorem mem_withKey {s t : Statement} :
    t ∈ s.withKey ↔
      t = s ∨ ∃ key before, s.keys = .selected key before ∧ t = { toDefinition := key } := by
  rw [withKey]
  cases s.keys with
  | selected key before => simp [or_comm]
  | absent => simp
  | generated => simp

theorem self_mem_withKey (s : Statement) : s ∈ s.withKey :=
  mem_withKey.2 (Or.inl rfl)

/-- A suffix makes another id. -/
theorem append_keySuffix_ne (id : String) : id ++ keySuffix ≠ id := by
  intro h
  have hlength := congrArg (·.toList.length) h
  simp [keySuffix] at hlength

/-- A statement and its key statement are registered in different places. -/
theorem OwnsKey.pairwise {s : Statement} (h : s.OwnsKey) :
    s.withKey.Pairwise fun t u => (t.id, t.dialect) ≠ (u.id, u.dialect) := by
  rw [withKey]
  cases hkeys : s.keys with
  | selected key before =>
    refine List.pairwise_pair.2 fun heq => ?_
    have hid : key.id = s.id := congrArg Prod.fst heq
    exact append_keySuffix_ne s.id ((h key before hkeys).1.symm.trans hid)
  | absent => exact List.pairwise_singleton ..
  | generated => exact List.pairwise_singleton ..

end Statement

/-! ### Several statements registered -/

namespace Draft

/-- The draft with some statements registered, one after another. -/
def insertAll (d : Draft) (l : List Statement) : Draft :=
  l.foldl insert d

theorem toCatalog_insert (d : Draft) (s : Statement) :
    (d.insert s).toCatalog = d.toCatalog.insert s := by
  rw [insert]

theorem insertAll_cons (d : Draft) (s : Statement) (l : List Statement) :
    d.insertAll (s :: l) = (d.insert s).insertAll l := by
  rw [insertAll, List.foldl_cons, insertAll]

/-- The settings of a draft, its fragments and what waits are no matter of its statements. -/
structure SameFrame (d d' : Draft) : Prop where
  dialect : d'.dialect = d.dialect
  generatedKeys : d'.generatedKeys = d.generatedKeys
  engine : d'.engine = d.engine
  fragments : d'.fragments = d.fragments
  pending : d'.pending = d.pending

theorem sameFrame_insert (d : Draft) (s : Statement) : d.SameFrame (d.insert s) where
  dialect := by rw [toCatalog_insert, Catalog.dialect_insert]
  generatedKeys := by rw [toCatalog_insert, Catalog.generatedKeys_insert]
  engine := by rw [toCatalog_insert, Catalog.engine_insert]
  fragments := by rw [insert]
  pending := by rw [insert]

theorem sameFrame_insertAll (d : Draft) (l : List Statement) : d.SameFrame (d.insertAll l) := by
  induction l generalizing d with
  | nil => exact ⟨rfl, rfl, rfl, rfl, rfl⟩
  | cons s rest ih =>
    rw [insertAll_cons]
    have hstep := sameFrame_insert d s
    have hrest := ih (d.insert s)
    exact ⟨hrest.dialect.trans hstep.dialect, hrest.generatedKeys.trans hstep.generatedKeys,
      hrest.engine.trans hstep.engine, hrest.fragments.trans hstep.fragments,
      hrest.pending.trans hstep.pending⟩

theorem variant?_insert (d : Draft) (s : Statement) (id : String) (dialect : Option String) :
    (d.insert s).statements.variant? id dialect =
      if s.id = id ∧ s.dialect = dialect then some s else d.statements.variant? id dialect := by
  rw [toCatalog_insert, Catalog.variant?_insert]

/-- What is registered in free places of its own is found there, and everything else where it
was. -/
theorem variant?_insertAll {d : Draft} {l : List Statement}
    (hdistinct : l.Pairwise fun t u => (t.id, t.dialect) ≠ (u.id, u.dialect))
    (hfree : ∀ t ∈ l, d.statements.variant? t.id t.dialect = none) (id : String)
    (dialect : Option String) (t : Statement) :
    (d.insertAll l).statements.variant? id dialect = some t ↔
      d.statements.variant? id dialect = some t ∨ t ∈ l ∧ t.id = id ∧ t.dialect = dialect := by
  induction l generalizing d with
  | nil => simp [insertAll]
  | cons s rest ih =>
    obtain ⟨hother, hrest⟩ := List.pairwise_cons.1 hdistinct
    have hfree' : ∀ u ∈ rest, (d.insert s).statements.variant? u.id u.dialect = none := by
      intro u hu
      rw [variant?_insert, if_neg fun heq => hother u hu (Prod.ext heq.1 heq.2)]
      exact hfree u (List.mem_cons_of_mem _ hu)
    rw [insertAll_cons, ih hrest hfree', variant?_insert, List.mem_cons]
    split
    · rename_i hplace
      obtain ⟨rfl, rfl⟩ := hplace
      have hold := hfree s List.mem_cons_self
      rw [hold, Option.some.injEq]
      constructor
      · rintro (rfl | ⟨hmem, hid, hdialect⟩)
        · exact Or.inr ⟨Or.inl rfl, rfl, rfl⟩
        · exact Or.inr ⟨Or.inr hmem, hid, hdialect⟩
      · rintro (hnone | ⟨rfl | hmem, hid, hdialect⟩)
        · cases hnone
        · exact Or.inl rfl
        · exact Or.inr ⟨hmem, hid, hdialect⟩
    · rename_i hplace
      refine or_congr_right ⟨fun h => ⟨Or.inr h.1, h.2⟩, ?_⟩
      rintro ⟨rfl | hmem, hid, hdialect⟩
      · exact absurd ⟨hid, hdialect⟩ hplace
      · exact ⟨hmem, hid, hdialect⟩

/-- Statements that are registered in free places of their own join the registered ones. -/
theorem mem_registered_insertAll {d : Draft} {l : List Statement}
    (hdistinct : l.Pairwise fun t u => (t.id, t.dialect) ≠ (u.id, u.dialect))
    (hfree : ∀ t ∈ l, d.statements.variant? t.id t.dialect = none) (t : Statement) :
    t ∈ (d.insertAll l).registered ↔ t ∈ d.registered ∨ t ∈ l := by
  refine (variant?_insertAll hdistinct hfree t.id t.dialect t).trans (or_congr_right ?_)
  exact and_iff_left ⟨rfl, rfl⟩

theorem sound_insertAll {d : Draft} (h : d.Sound) (l : List Statement) :
    (d.insertAll l).Sound := by
  induction l generalizing d with
  | nil => exact h
  | cons s rest ih =>
    rw [insertAll_cons]
    refine ih ?_
    rw [toCatalog_insert]
    exact h.insert s

/-- The ids with a point, of the statements that are registered, become owners. -/
theorem mem_ownersOf_insertAll (d : Draft) (l : List Statement) (short id : String) :
    id ∈ (d.insertAll l).ownersOf short ↔
      id ∈ d.ownersOf short ∨ (∃ t ∈ l, t.id = id) ∧ shortId id = short ∧ short ≠ id := by
  induction l generalizing d with
  | nil => simp [insertAll]
  | cons s rest ih =>
    rw [insertAll_cons, ih, toCatalog_insert, Catalog.ownersOf_insert,
      Catalog.mem_ownersOf_addOwner, or_assoc]
    simp only [List.exists_mem_cons_iff, or_and_right]
    refine or_congr_right (or_congr_left ⟨?_, ?_⟩)
    · rintro ⟨rfl, hrest⟩
      exact ⟨rfl, hrest⟩
    · rintro ⟨rfl, hrest⟩
      exact ⟨rfl, hrest⟩

end Draft

/-! ### The statement of an element -/

namespace Registration

theorem generator_eq_selected {c : Catalog} {command : Command} {e : Element}
    {key? : Option (Definition × Bool)} {key : Definition} {before : Bool}
    (h : generator c command e key? = .ok (.selected key before)) : key? = some (key, before) := by
  cases key? with
  | none =>
    rw [generator, plainGenerator] at h
    split at h
    · cases h
    · obtain ⟨flag, -, hflag⟩ := exists_of_bind_eq_ok h
      cases flag <;> cases hflag
  | some pair => cases h; rfl

theorem of_keyStatement? {c : Catalog} {id : String} {dialect : Option String}
    {content : List Markup} {hint : Option String} {key : Definition} {before : Bool}
    (h : keyStatement? c id dialect content hint = .ok (some (key, before))) :
    key.id = id ++ keySuffix ∧ key.dialect = dialect := by
  rw [keyStatement?] at h
  split at h
  · cases h
  · obtain ⟨order, -, h⟩ := exists_of_bind_eq_ok h
    obtain ⟨source, -, h⟩ := exists_of_bind_eq_ok h
    obtain ⟨preparation, -, h⟩ := exists_of_bind_eq_ok h
    cases h
    exact ⟨rfl, rfl⟩

theorem of_ofElement {id : String} {command : Command} {e : Element} {source : Source}
    {definition : Definition} (h : Definition.ofElement id command e source = .ok definition) :
    definition.id = id ∧ definition.dialect = e.attribute? "databaseId" := by
  rw [Definition.ofElement] at h
  obtain ⟨fetchSize, -, h⟩ := exists_of_bind_eq_ok h
  obtain ⟨timeout, -, h⟩ := exists_of_bind_eq_ok h
  obtain ⟨preparation, -, h⟩ := exists_of_bind_eq_ok h
  obtain ⟨flushCache, -, h⟩ := exists_of_bind_eq_ok h
  obtain ⟨useCache, -, h⟩ := exists_of_bind_eq_ok h
  obtain ⟨resultOrdered, -, h⟩ := exists_of_bind_eq_ok h
  cases h
  exact ⟨rfl, rfl⟩

/-- The statement of an element has the id of its heading and the dialect of its attribute, and so
has its key statement. -/
theorem of_prepare {d : Draft} {space : String} {e : Element} {command : Command} {id : String}
    {s : Statement} (h : prepare d space e command id = .ok s) :
    s.id = id ∧ s.dialect = e.attribute? "databaseId" ∧ s.OwnsKey := by
  rw [prepare] at h
  obtain ⟨content, -, h⟩ := exists_of_bind_eq_ok h
  obtain ⟨key?, hkey, h⟩ := exists_of_bind_eq_ok h
  obtain ⟨source, -, h⟩ := exists_of_bind_eq_ok h
  obtain ⟨definition, hdefinition, h⟩ := exists_of_bind_eq_ok h
  obtain ⟨keys, hkeys, h⟩ := exists_of_bind_eq_ok h
  obtain rfl := Except.ok.inj h
  obtain ⟨hid, hdialect⟩ := of_ofElement hdefinition
  refine ⟨hid, hdialect, fun key before hselected => ?_⟩
  obtain rfl : keys = .selected key before := hselected
  rw [generator_eq_selected hkeys] at hkey
  obtain ⟨hkeyId, hkeyDialect⟩ := of_keyStatement? hkey
  exact ⟨hkeyId.trans (congrArg (· ++ keySuffix) hid.symm), hkeyDialect.trans hdialect.symm⟩

/-- A heading is that of a statement element. -/
theorem isSome_of_heading {space : String} {e : Element} {command : Command} {id : String}
    (h : heading space e = .ok (command, id)) : (Command.ofTag? e.name).isSome = true := by
  rw [heading] at h
  split at h
  · rename_i hcommand
    rw [hcommand]
    rfl
  · cases h

/-! ### Outcomes of a registration -/

/-- A statement that may be registered is registered behind its key statement, unless there is one
in the place of the latter. -/
theorem publish_cases {s : Statement} {d : Draft} (hkey : s.OwnsKey)
    (happly : Applies d.dialect s.dialect)
    (hfree : d.statements.variant? s.id s.dialect = none) :
    ((∃ t ∈ s.withKey, (d.statements.variant? t.id t.dialect).isSome = true) ∧
      publish s d = (.error (.duplicate (s.id ++ keySuffix)), d)) ∨
    (∀ t ∈ s.withKey, d.statements.variant? t.id t.dialect = none) ∧
      publish s d = (.ok (some s), d.insertAll s.withKey) := by
  have hadd (m : Draft) (hdialect : m.dialect = d.dialect)
      (hm : m.statements.variant? s.id s.dialect = none) :
      Loading.add s m = (.ok (some s), m.insert s) := by
    rw [Loading.add_apply, hdialect, if_neg (not_not.2 happly), hm]
    rfl
  rw [publish, Statement.withKey]
  cases hkeys : s.keys with
  | absent =>
    refine Or.inr ⟨fun t ht => ?_, hadd d rfl hfree⟩
    rw [List.mem_singleton.1 ht]
    exact hfree
  | generated =>
    refine Or.inr ⟨fun t ht => ?_, hadd d rfl hfree⟩
    rw [List.mem_singleton.1 ht]
    exact hfree
  | selected key before =>
    obtain ⟨hid, hdialect⟩ := hkey key before hkeys
    have happly' : Applies d.dialect key.dialect := hdialect ▸ happly
    dsimp only
    rw [bind_apply, Loading.read, Catalog.admits_eq, if_neg (not_not.2 happly')]
    cases hold : d.statements.variant? key.id key.dialect with
    | some t =>
      refine Or.inl ⟨⟨_, List.mem_cons_self, Option.isSome_iff_exists.2 ⟨t, hold⟩⟩, ?_⟩
      rw [← hid]
      rfl
    | none =>
      have hfirst : Loading.add { toDefinition := key } d =
          (.ok (some { toDefinition := key }), d.insert { toDefinition := key }) := by
        rw [Loading.add_apply, if_neg (not_not.2 happly'), hold]
        rfl
      have hsecond : (d.insert { toDefinition := key }).statements.variant? s.id s.dialect =
          none := by
        rw [Draft.variant?_insert, if_neg, hfree]
        intro heq
        exact Statement.append_keySuffix_ne s.id (hid.symm.trans heq.1)
      refine Or.inr ⟨fun t ht => ?_, ?_⟩
      · rcases List.mem_cons.1 ht with rfl | ht
        · exact hold
        · rw [List.mem_singleton.1 ht]
          exact hfree
      · rw [Option.isSome_none, if_neg Bool.false_ne_true]
        dsimp only
        rw [if_pos rfl, bind_apply, hfirst]
        exact hadd _ (Draft.sameFrame_insert ..).dialect hsecond

/-- A registration reads the heading of the element, asks for admission, compiles the statement and
publishes it. -/
theorem register_apply (space : String) (e : Element) (d : Draft) :
    register space e d = match heading space e with
      | .error failure => (.error failure, d)
      | .ok (command, id) =>
        match d.admits id (e.attribute? "databaseId") with
        | .error failure => (.error failure, d)
        | .ok false => (.ok none, d)
        | .ok true =>
          match prepare d space e command id with
          | .error failure => (.error failure, d)
          | .ok s => publish s d := by
  rw [register, bind_apply, Loading.read]
  rcases heading space e with failure | ⟨command, id⟩
  · rfl
  · dsimp only
    rw [bind_apply, Loading.read]
    rcases d.admits id (e.attribute? "databaseId") with failure | _ | _
    · rfl
    · rfl
    · dsimp only
      rw [if_pos rfl, bind_apply, Loading.read]
      rcases prepare d space e command id with failure | s <;> rfl

/-- A registration fails, or passes over an element whose dialect does not apply, and leaves the
draft as it is; or else it registers the statement of the element behind its key statement, in
places that were free. -/
theorem register_cases (space : String) (e : Element) (d : Draft) :
    (∃ failure, register space e d = (.error failure, d)) ∨
    (¬ Applies d.dialect (e.attribute? "databaseId") ∧ register space e d = (.ok none, d)) ∨
    ∃ command id s, heading space e = .ok (command, id) ∧
      Applies d.dialect (e.attribute? "databaseId") ∧ prepare d space e command id = .ok s ∧
      (∀ t ∈ s.withKey, d.statements.variant? t.id t.dialect = none) ∧
      register space e d = (.ok (some s), d.insertAll s.withKey) := by
  rw [register_apply]
  cases hheading : heading space e with
  | error failure => exact Or.inl ⟨failure, rfl⟩
  | ok pair =>
    obtain ⟨command, id⟩ := pair
    dsimp only
    rw [Catalog.admits_eq]
    by_cases happly : Applies d.dialect (e.attribute? "databaseId")
    · rw [if_neg (not_not.2 happly)]
      cases hold : d.statements.variant? id (e.attribute? "databaseId") with
      | some t => exact Or.inl ⟨_, rfl⟩
      | none =>
        dsimp only [Option.isSome_none]
        rw [if_neg Bool.false_ne_true]
        dsimp only
        cases hprepare : prepare d space e command id with
        | error failure => exact Or.inl ⟨failure, rfl⟩
        | ok s =>
          obtain ⟨rfl, hdialect, hkey⟩ := of_prepare hprepare
          rw [← hdialect] at happly hold
          rcases publish_cases hkey happly hold with ⟨-, hpublish⟩ | ⟨hfree, hpublish⟩
          · exact Or.inl ⟨_, hpublish⟩
          · exact Or.inr (Or.inr ⟨command, s.id, s, rfl, hdialect ▸ happly, hprepare, hfree,
              hpublish⟩)
    · rw [if_pos happly]
      exact Or.inr (Or.inl ⟨happly, rfl⟩)

theorem eq_of_register_eq_error {space : String} {e : Element} {d d' : Draft} {failure : Failure}
    (h : register space e d = (.error failure, d')) : d' = d := by
  rcases register_cases space e d with ⟨f, hrun⟩ | ⟨-, hrun⟩ | ⟨-, -, s, -, -, -, -, hrun⟩
  · rw [hrun] at h
    exact (Prod.mk.inj h).2.symm
  · rw [hrun] at h
    cases (Prod.mk.inj h).1
  · rw [hrun] at h
    cases (Prod.mk.inj h).1

/-- A registration that fails, or that passes over an element, leaves the draft exactly as it was.
One that succeeds adds the statement, and exactly if its keys are selected also its key statement,
which is the one that its generator refers to. Both are for the dialect of the element and in places
that were free; nothing else is registered or changed. -/
theorem register_all_or_nothing (space : String) (e : Element) (d d' : Draft) :
    (∀ failure, register space e d = (.error failure, d') → d' = d) ∧
    (register space e d = (.ok none, d') → d' = d) ∧
    ∀ s, register space e d = (.ok (some s), d') →
      (∃ command, heading space e = .ok (command, s.id)) ∧
      s.dialect = e.attribute? "databaseId" ∧
      d.statements.variant? s.id s.dialect = none ∧
      (∀ key before, s.keys = .selected key before →
        key.id = s.id ++ keySuffix ∧ key.dialect = s.dialect ∧
          d.statements.variant? key.id key.dialect = none) ∧
      (∀ id dialect t, d'.statements.variant? id dialect = some t ↔
        d.statements.variant? id dialect = some t ∨
        (t = s ∧ id = s.id ∧ dialect = s.dialect) ∨
        ∃ key before, s.keys = .selected key before ∧ t = { toDefinition := key } ∧
          id = s.id ++ keySuffix ∧ dialect = s.dialect) ∧
      (∀ short id, id ∈ d'.ownersOf short ↔
        id ∈ d.ownersOf short ∨
        (id = s.id ∨ ∃ key before, s.keys = .selected key before ∧ id = s.id ++ keySuffix) ∧
          shortId id = short ∧ short ≠ id) ∧
      d.SameFrame d' := by
  rcases register_cases space e d with ⟨f, hrun⟩ | ⟨-, hrun⟩ |
    ⟨command, id, s, hheading, -, hprepare, hfree, hrun⟩
  · rw [hrun]
    exact ⟨fun _ h => (Prod.mk.inj h).2.symm, fun h => (nomatch (Prod.mk.inj h).1),
      fun _ h => (nomatch (Prod.mk.inj h).1)⟩
  · rw [hrun]
    exact ⟨fun _ h => (nomatch (Prod.mk.inj h).1), fun h => (Prod.mk.inj h).2.symm,
      fun _ h => (nomatch (Prod.mk.inj h).1)⟩
  rw [hrun]
  refine ⟨fun _ h => (nomatch (Prod.mk.inj h).1), fun h => (nomatch (Prod.mk.inj h).1),
    fun t ht => ?_⟩
  obtain ⟨hs, rfl⟩ := Prod.mk.inj ht
  obtain rfl := Option.some.inj (Except.ok.inj hs)
  obtain ⟨rfl, hdialect, hkey⟩ := of_prepare hprepare
  have hframe := d.sameFrame_insertAll s.withKey
  have hkeyMem {key : Definition} {before : Bool} (hselected : s.keys = .selected key before) :
      { toDefinition := key } ∈ s.withKey :=
    Statement.mem_withKey.2 (Or.inr ⟨key, before, hselected, rfl⟩)
  refine ⟨⟨command, hheading⟩, hdialect, hfree s s.self_mem_withKey, fun key before hselected => ?_,
    fun id dialect t => ?_, fun short id => ?_, hframe⟩
  · obtain ⟨hid, hsame⟩ := hkey key before hselected
    exact ⟨hid, hsame, hfree { toDefinition := key } (hkeyMem hselected)⟩
  · rw [Draft.variant?_insertAll hkey.pairwise hfree, Statement.mem_withKey]
    refine or_congr_right ⟨?_, ?_⟩
    · rintro ⟨rfl | ⟨key, before, hselected, rfl⟩, rfl, rfl⟩
      · exact Or.inl ⟨rfl, rfl, rfl⟩
      · obtain ⟨hid, hsame⟩ := hkey key before hselected
        exact Or.inr ⟨key, before, hselected, rfl, hid, hsame⟩
    · rintro (⟨rfl, rfl, rfl⟩ | ⟨key, before, hselected, rfl, rfl, rfl⟩)
      · exact ⟨Or.inl rfl, rfl, rfl⟩
      · exact ⟨Or.inr ⟨key, before, hselected, rfl⟩, hkey key before hselected⟩
  · rw [Draft.mem_ownersOf_insertAll]
    refine or_congr_right (and_congr_left fun _ => ⟨?_, ?_⟩)
    · rintro ⟨t, ht, rfl⟩
      rcases Statement.mem_withKey.1 ht with rfl | ⟨key, before, hselected, rfl⟩
      · exact Or.inl rfl
      · exact Or.inr ⟨key, before, hselected, (hkey key before hselected).1⟩
    · rintro (rfl | ⟨key, before, hselected, rfl⟩)
      · exact ⟨s, s.self_mem_withKey, rfl⟩
      · exact ⟨{ toDefinition := key }, hkeyMem hselected, (hkey key before hselected).1⟩

namespace adding

/-- An insert that selects its key. -/
def element : Element where
  name := "insert"
  attributes := [("id", "add"), ("databaseId", "h2")]
  children := [.element "selectKey" [("keyProperty", "id")] [.text "select 1"], .text "insert"]

/-- Its key statement. -/
def key : Definition where
  id := "ns.add!selectKey"
  command := .select
  source := .fixed "select 1" "select 1" []
  dialect := some "h2"
  keyProperties := ["id"]
  flushCache := false
  useCache := false

/-- The statement that it comes to. -/
def statement : Statement where
  id := "ns.add"
  command := .insert
  source := .fixed "insert" "insert" []
  dialect := some "h2"
  keys := .selected key false

set_option maxRecDepth 20000 in
theorem register_element :
    register "ns" element {} =
      (.ok (some statement), ({} : Draft).insertAll statement.withKey) := by
  cbv

end adding

open adding in
/-- An insert is registered with its key statement. The same again fails, and while another dialect
is active it is passed over; both leave the draft as it is. -/
theorem register_all_or_nothing_adding :
    let d := ({} : Draft).insertAll statement.withKey
    let foreign : Draft := { dialect := some "pg" }
    register "ns" element {} = (.ok (some statement), d) ∧
      d.statements.variant? "ns.add" (some "h2") = some statement ∧
      d.statements.variant? "ns.add!selectKey" (some "h2") = some { toDefinition := key } ∧
      (register "ns" element d).1 = .error (.duplicate "ns.add") ∧
      (register "ns" element d).2 = d ∧
      (register "ns" element foreign).1 = .ok none ∧
      (register "ns" element foreign).2 = foreign := by
  intro d foreign
  have hduplicate : (register "ns" element d).1 = .error (.duplicate "ns.add") := by
    cbv
  have hforeign : (register "ns" element foreign).1 = .ok none := by
    cbv
  obtain ⟨-, -, -, -, hplaces, -⟩ :=
    (register_all_or_nothing "ns" element {} d).2.2 statement register_element
  refine ⟨register_element, (hplaces _ _ _).2 (Or.inr (Or.inl ⟨rfl, rfl, rfl⟩)),
    (hplaces _ _ _).2 (Or.inr (Or.inr ⟨key, false, rfl, rfl, by decide, rfl⟩)), hduplicate,
    (register_all_or_nothing "ns" element d _).1 _ (Prod.ext hduplicate rfl), hforeign,
    (register_all_or_nothing "ns" element foreign _).2.1 (Prod.ext hforeign rfl)⟩

end Registration

end SqlTemplate
