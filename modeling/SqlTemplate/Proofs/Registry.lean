import Mathlib
import SqlTemplate.Catalog.Loading
import SqlTemplate.Proofs.Outcome
import SqlTemplate.Proofs.VariantMaps

/-!
# The registry of statements

A catalog keeps its statements twice: under their ids, with their variants by dialect, and as the
owners of short ids. The two agree in every catalog that registration leaves behind
(`Catalog.Sound`). In such a catalog each look-up is answered from the set of the registered
statements alone (`Catalog.Answer`), so that the order of their registration cannot be told.

## Main definitions

* `Catalog.registered` : the set of the registered statements.
* `Catalog.Sound` : statements are found under their own ids and dialects, and owners are exactly
  the ids with a point.
* `Catalog.Means` : the id that a name stands for, given a set of statements.
* `Catalog.Answer` : what a look-up has to answer, given a set of statements.
* `Draft.addAll`, `Draft.accepted` : statements added one after another, and the accepted ones.

## Main results

* `Catalog.Sound.insert` : registering one statement keeps a catalog sound.
* `Catalog.Sound.statementFor_eq_iff` : a look-up in a sound catalog gives the answer.
* `Loading.add_apply` : the outcome of adding a statement.
* `Draft.lookups_of_accepted` : every call and every look-up, as the accepted statements decide.
-/

namespace SqlTemplate

namespace Catalog

/-! ### Sound catalogs -/

/-- The qualified ids that have a short id. -/
def ownersOf (c : Catalog) (short : String) : List String :=
  (c.owners.find? short).getD []

/-- The registered statements. -/
def registered (c : Catalog) : Set Statement :=
  {s | c.statements.variant? s.id s.dialect = some s}

/-- A catalog whose statements are found under their own ids and dialects, and in which the owners
of a short id are the registered ids that it is short for. -/
structure Sound (c : Catalog) : Prop where
  proper : c.statements.Proper
  labelled : ∀ id dialect s, c.statements.variant? id dialect = some s →
    s.id = id ∧ s.dialect = dialect
  mem_ownersOf : ∀ short id, id ∈ c.ownersOf short ↔
    c.statements.has id = true ∧ shortId id = short ∧ short ≠ id
  nodup_ownersOf : ∀ short, (c.ownersOf short).Nodup

/-- The empty catalog, whatever its settings, is sound. -/
theorem sound_empty {c : Catalog} (hs : c.statements = []) (ho : c.owners = []) : c.Sound where
  proper := hs ▸ Entries.proper_nil
  labelled id dialect s h := by
    rw [hs] at h
    cases h
  mem_ownersOf short id := by
    rw [ownersOf, ho, hs]
    simp [Entries.has]
  nodup_ownersOf short := by
    rw [ownersOf, ho]
    exact List.nodup_nil

variable {c : Catalog}

/-- A statement is registered under an id and a dialect if it is registered and these are its
own. -/
theorem Sound.variant?_eq_some_iff (h : c.Sound) {id : String} {dialect : Option String}
    {s : Statement} : c.statements.variant? id dialect = some s ↔
      s ∈ c.registered ∧ s.id = id ∧ s.dialect = dialect := by
  constructor
  · intro hs
    obtain ⟨rfl, rfl⟩ := h.labelled id dialect s hs
    exact ⟨hs, rfl, rfl⟩
  · rintro ⟨hs, rfl, rfl⟩
    exact hs

theorem Sound.variant?_eq_none_iff (h : c.Sound) {id : String} {dialect : Option String} :
    c.statements.variant? id dialect = none ↔
      ∀ s ∈ c.registered, s.id = id → s.dialect ≠ dialect := by
  rw [Option.eq_none_iff_forall_ne_some]
  simp only [ne_eq, h.variant?_eq_some_iff, not_and]

/-- Sound catalogs have the same statements, in the same order, where the same statements are
registered. -/
theorem Sound.statements_eq {c' : Catalog} (h : c.Sound) (h' : c'.Sound)
    (hr : c.registered = c'.registered) : c.statements = c'.statements := by
  refine h.proper.ext h'.proper fun id dialect => Option.ext fun s => ?_
  rw [h.variant?_eq_some_iff, h'.variant?_eq_some_iff, hr]

/-! ### Registering one statement -/

theorem addOwner_eq (c : Catalog) (id : String) :
    c.addOwner id = { c with owners := (c.addOwner id).owners } := by
  rw [addOwner]
  split
  · rfl
  · dsimp only
    split <;> rfl

/-- An id that is not short becomes an owner of its short id. -/
theorem mem_ownersOf_addOwner (c : Catalog) (id short id' : String) :
    id' ∈ (c.addOwner id).ownersOf short ↔
      id' ∈ c.ownersOf short ∨ id' = id ∧ shortId id = short ∧ short ≠ id := by
  rw [addOwner]
  split
  · rename_i hself
    exact (or_iff_left fun h => h.2.2 (h.2.1.symm.trans hself)).symm
  · rename_i hshort
    dsimp only
    split
    · rename_i hold
      refine (or_iff_left_of_imp ?_).symm
      rintro ⟨rfl, rfl, -⟩
      exact List.contains_iff_mem.1 hold
    · rw [ownersOf, Entries.find?_insert, ownersOf]
      split
      · rename_i hs
        subst hs
        simp only [Option.getD_some, List.mem_append, List.mem_singleton, ne_eq, hshort,
          not_false_eq_true, and_true]
      · rename_i hs
        exact (or_iff_left fun h => hs h.2.1).symm

theorem nodup_ownersOf_addOwner {short : String} (id : String) (h : (c.ownersOf short).Nodup) :
    ((c.addOwner id).ownersOf short).Nodup := by
  rw [addOwner]
  split
  · exact h
  · dsimp only
    split
    · exact h
    · rename_i hnew
      rw [ownersOf, Entries.find?_insert]
      split
      · rename_i hs
        subst hs
        refine List.nodup_append.2 ⟨h, List.nodup_singleton _, ?_⟩
        rintro a ha b hb rfl
        rw [List.mem_singleton.1 hb] at ha
        exact hnew (List.contains_iff_mem.2 ha)
      · exact h

theorem statements_insert (c : Catalog) (s : Statement) :
    (c.insert s).statements =
      c.statements.insert s.id (((c.statements.find? s.id).getD {}).insert s.dialect s) := by
  rw [insert]

/-- Registering changes what is registered under one id and one dialect. -/
theorem variant?_insert (c : Catalog) (s : Statement) (id : String) (dialect : Option String) :
    (c.insert s).statements.variant? id dialect =
      if s.id = id ∧ s.dialect = dialect then some s else c.statements.variant? id dialect := by
  rw [statements_insert, Entries.variant?_insert]

theorem has_insert (c : Catalog) (s : Statement) (id : String) :
    (c.insert s).statements.has id = true ↔ s.id = id ∨ c.statements.has id = true := by
  rw [statements_insert, Entries.has, Entries.find?_insert, Entries.has]
  split <;> simp_all

@[simp] theorem dialect_insert (c : Catalog) (s : Statement) :
    (c.insert s).dialect = c.dialect := by
  rw [insert, addOwner_eq]

@[simp] theorem generatedKeys_insert (c : Catalog) (s : Statement) :
    (c.insert s).generatedKeys = c.generatedKeys := by
  rw [insert, addOwner_eq]

@[simp] theorem engine_insert (c : Catalog) (s : Statement) :
    (c.insert s).engine = c.engine := by
  rw [insert, addOwner_eq]

theorem ownersOf_insert (c : Catalog) (s : Statement) (short : String) :
    (c.insert s).ownersOf short = (c.addOwner s.id).ownersOf short := by
  rw [insert, ownersOf, ownersOf]

/-- A catalog stays sound when a statement is registered. -/
theorem Sound.insert (h : c.Sound) (s : Statement) : (c.insert s).Sound where
  proper := by
    rw [statements_insert]
    exact h.proper.insert s.id s.dialect s
  labelled id dialect t ht := by
    rw [variant?_insert] at ht
    split at ht
    · rename_i hown
      obtain rfl := Option.some.inj ht
      exact hown
    · exact h.labelled id dialect t ht
  mem_ownersOf short id := by
    rw [has_insert, ownersOf_insert, mem_ownersOf_addOwner, h.mem_ownersOf]
    constructor
    · rintro (⟨hhas, hrest⟩ | ⟨rfl, hrest⟩)
      · exact ⟨Or.inr hhas, hrest⟩
      · exact ⟨Or.inl rfl, hrest⟩
    · rintro ⟨rfl | hhas, hrest⟩
      · exact Or.inr ⟨rfl, hrest⟩
      · exact Or.inl ⟨hhas, hrest⟩
  nodup_ownersOf short := by
    rw [ownersOf_insert]
    exact nodup_ownersOf_addOwner s.id (h.nodup_ownersOf short)

/-- Where nothing is registered under its id and dialect, a statement joins the registered ones. -/
theorem registered_insert {s : Statement} (hs : c.statements.variant? s.id s.dialect = none) :
    (c.insert s).registered = Insert.insert s c.registered := by
  ext t
  rw [Set.mem_insert_iff, registered, Set.mem_ofPred_eq, variant?_insert]
  split
  · rename_i heq
    have hold : t ∉ c.registered := fun ht => by
      have hsome : c.statements.variant? s.id s.dialect = some t := heq.1 ▸ heq.2 ▸ ht
      rw [hs] at hsome
      cases hsome
    rw [Option.some.injEq, or_iff_left hold, eq_comm]
  · rename_i hne
    refine (or_iff_right ?_).symm
    rintro rfl
    exact hne ⟨rfl, rfl⟩

/-! ### Answers -/

/-- Some statement of a set has the id. -/
def Names (A : Set Statement) (id : String) : Prop :=
  ∃ s ∈ A, s.id = id

/-- The id that a name stands for: the name itself where a statement has it, and else the only id
that it is short for. -/
def Means (A : Set Statement) (name id : String) : Prop :=
  Names A id ∧ (id = name ∨
    ¬ Names A name ∧ shortId id = name ∧ ∀ other, Names A other → shortId other = name → other = id)

/-- What the look-up of a name for a dialect has to answer, given a set of statements. -/
inductive Answer (A : Set Statement) (name : String) (dialect : Option String) :
    Except Failure Statement → Prop
  /-- The statement of the id for the dialect. -/
  | exact {s : Statement} (hs : s ∈ A) (hname : Means A name s.id)
      (hdialect : s.dialect = dialect) :
    Answer A name dialect (.ok s)
  /-- The statement of the id for no dialect, where there is none for the dialect. -/
  | fallback {s : Statement} (hs : s ∈ A) (hname : Means A name s.id) (hdialect : s.dialect = none)
      (hnone : ∀ t ∈ A, t.id = s.id → t.dialect ≠ dialect) :
    Answer A name dialect (.ok s)
  /-- The statements of the id are all for other dialects. -/
  | elsewhere {id : String} (hname : Means A name id)
      (hnone : ∀ t ∈ A, t.id = id → t.dialect ≠ dialect ∧ t.dialect ≠ none) :
    Answer A name dialect (.error (.statementNotFound name))
  /-- The name is short for two ids, and not itself an id. -/
  | ambiguous {id other : String} (hname : ¬ Names A name) (hid : Names A id)
      (hother : Names A other) (hne : id ≠ other) (hshort : shortId id = name)
      (hshort' : shortId other = name) :
    Answer A name dialect (.error (.ambiguousStatement name))
  /-- The name is neither an id nor short for one. -/
  | unknown (hname : ¬ Names A name) (hnone : ∀ id, Names A id → shortId id ≠ name) :
    Answer A name dialect (.error (.statementNotFound name))

/-- Some answer is always the right one. -/
theorem exists_answer (A : Set Statement) (name : String) (dialect : Option String) :
    ∃ r, Answer A name dialect r := by
  have hmeant {id : String} (hname : Means A name id) : ∃ r, Answer A name dialect r := by
    by_cases hexact : ∃ t ∈ A, t.id = id ∧ t.dialect = dialect
    · obtain ⟨t, ht, rfl, hd⟩ := hexact
      exact ⟨_, .exact ht hname hd⟩
    have hnone : ∀ t ∈ A, t.id = id → t.dialect ≠ dialect :=
      fun t ht hid hd => hexact ⟨t, ht, hid, hd⟩
    by_cases hfallback : ∃ t ∈ A, t.id = id ∧ t.dialect = none
    · obtain ⟨t, ht, rfl, hd⟩ := hfallback
      exact ⟨_, .fallback ht hname hd hnone⟩
    · exact ⟨_, .elsewhere hname fun t ht hid =>
        ⟨hnone t ht hid, fun hd => hfallback ⟨t, ht, hid, hd⟩⟩⟩
  by_cases hname : Names A name
  · exact hmeant ⟨hname, Or.inl rfl⟩
  by_cases hshort : ∃ id, Names A id ∧ shortId id = name
  · obtain ⟨id, hid, hs⟩ := hshort
    by_cases honly : ∀ other, Names A other → shortId other = name → other = id
    · exact hmeant ⟨hid, Or.inr ⟨hname, hs, honly⟩⟩
    · push Not at honly
      obtain ⟨other, hother, hs', hne⟩ := honly
      exact ⟨_, .ambiguous hname hother hid hne hs' hs⟩
  · exact ⟨_, .unknown hname fun id hid hs => hshort ⟨id, hid, hs⟩⟩

theorem Sound.has_iff (h : c.Sound) (id : String) :
    c.statements.has id = true ↔ Names c.registered id := by
  rw [h.proper.has_iff]
  constructor
  · rintro ⟨dialect, hsome⟩
    obtain ⟨s, hs⟩ := Option.isSome_iff_exists.1 hsome
    obtain ⟨hmem, hid, -⟩ := h.variant?_eq_some_iff.1 hs
    exact ⟨s, hmem, hid⟩
  · rintro ⟨s, hs, rfl⟩
    exact ⟨s.dialect, Option.isSome_iff_exists.2 ⟨s, hs⟩⟩

theorem qualified_eq (c : Catalog) (name : String) :
    c.qualified name =
      if c.statements.has name then .ok name
      else match c.ownersOf name with
        | [] => .error (.statementNotFound name)
        | [owner] => .ok owner
        | _ :: _ :: _ => .error (.ambiguousStatement name) := by
  rw [qualified, ownersOf]
  rcases c.owners.find? name with _ | _ | ⟨owner, _ | ⟨_, _⟩⟩ <;> rfl

/-- The owners of a name that is no id are the ids that it is short for. -/
theorem Sound.mem_ownersOf_iff (h : c.Sound) {name : String} (hname : ¬ Names c.registered name)
    (id : String) : id ∈ c.ownersOf name ↔ Names c.registered id ∧ shortId id = name := by
  rw [h.mem_ownersOf, h.has_iff]
  constructor
  · rintro ⟨hid, hshort, -⟩
    exact ⟨hid, hshort⟩
  · rintro ⟨hid, hshort⟩
    exact ⟨hid, hshort, fun heq => hname (heq ▸ hid)⟩

theorem Sound.qualified_of_means (h : c.Sound) {name id : String}
    (hmeans : Means c.registered name id) : c.qualified name = .ok id := by
  obtain ⟨hid, rfl | ⟨hname, hshort, honly⟩⟩ := hmeans
  · rw [qualified_eq, if_pos ((h.has_iff id).2 hid)]
  have howners : c.ownersOf name = [id] := by
    have hmem : id ∈ c.ownersOf name := (h.mem_ownersOf_iff hname id).2 ⟨hid, hshort⟩
    have hall (other : String) (ho : other ∈ c.ownersOf name) : other = id :=
      honly other ((h.mem_ownersOf_iff hname other).1 ho).1
        ((h.mem_ownersOf_iff hname other).1 ho).2
    have hrep := List.eq_replicate_of_mem hall
    have hle := List.nodup_iff_count_le_one.1 (h.nodup_ownersOf name) id
    rw [hrep, List.count_replicate_self] at hle
    have hpos := List.length_pos_of_mem hmem
    rwa [show (c.ownersOf name).length = 1 by omega] at hrep
  rw [qualified_eq, if_neg (mt (h.has_iff name).1 hname), howners]

/-- A look-up gives each answer that is right. -/
theorem Sound.statementFor_of_answer (h : c.Sound) {name : String} {dialect : Option String}
    {r : Except Failure Statement} (hr : Answer c.registered name dialect r) :
    c.statementFor name dialect = r := by
  have hmeant {id : String} (hname : Means c.registered name id) :
      c.statementFor name dialect =
        ((c.statements.variant? id dialect).or (c.statements.variant? id none)).elim
          (.error (.statementNotFound name)) .ok := by
    rw [statementFor, h.qualified_of_means hname, ← Entries.resolve?_eq]
    change Except.bind (.ok id) _ = _
    rw [Except.bind]
    cases (c.statements.find? id).bind (·.resolve? dialect) <;> rfl
  cases hr with
  | exact hs hname hdialect =>
    rw [hmeant hname, h.variant?_eq_some_iff.2 ⟨hs, rfl, hdialect⟩]
    rfl
  | fallback hs hname hdialect hnone =>
    rw [hmeant hname, h.variant?_eq_none_iff.2 hnone,
      h.variant?_eq_some_iff.2 ⟨hs, rfl, hdialect⟩]
    rfl
  | elsewhere hname hnone =>
    rw [hmeant hname, h.variant?_eq_none_iff.2 fun t ht hid => (hnone t ht hid).1,
      h.variant?_eq_none_iff.2 fun t ht hid => (hnone t ht hid).2]
    rfl
  | @ambiguous id other hname hid hother hne hshort hshort' =>
    have hmem := (h.mem_ownersOf_iff hname id).2 ⟨hid, hshort⟩
    have hmem' := (h.mem_ownersOf_iff hname other).2 ⟨hother, hshort'⟩
    rw [statementFor, qualified_eq, if_neg (mt (h.has_iff name).1 hname)]
    generalize c.ownersOf name = owners at hmem hmem'
    rcases owners with _ | ⟨owner, _ | ⟨second, rest⟩⟩
    · cases hmem
    · exact absurd ((List.mem_singleton.1 hmem).trans (List.mem_singleton.1 hmem').symm) hne
    · rfl
  | unknown hname hnone =>
    have hempty : c.ownersOf name = [] := by
      refine List.eq_nil_iff_forall_not_mem.2 fun id hid => ?_
      obtain ⟨hid, hshort⟩ := (h.mem_ownersOf_iff hname id).1 hid
      exact hnone id hid hshort
    rw [statementFor, qualified_eq, if_neg (mt (h.has_iff name).1 hname), hempty]
    rfl

/-- A look-up in a sound catalog is decided by the set of the registered statements. -/
theorem Sound.statementFor_eq_iff (h : c.Sound) {name : String} {dialect : Option String}
    {r : Except Failure Statement} :
    c.statementFor name dialect = r ↔ Answer c.registered name dialect r := by
  refine ⟨fun heq => ?_, h.statementFor_of_answer⟩
  obtain ⟨r', hr'⟩ := exists_answer c.registered name dialect
  obtain rfl : r' = r := (h.statementFor_of_answer hr').symm.trans heq
  exact hr'

/-! ### Ids -/

/-- The variants under an id are the registered statements of the id, each for its dialect. -/
theorem Sound.declared?_eq_some_iff (h : c.Sound) {id : String} {v : Variants Statement}
    (hv : (id, v) ∈ c.statements) {dialect : Option String} {s : Statement} :
    v.declared? dialect = some s ↔ s ∈ c.registered ∧ s.id = id ∧ s.dialect = dialect := by
  rw [← h.variant?_eq_some_iff, Entries.variant?, h.proper.ordered.mem_iff.1 hv, Option.bind_some]

theorem Sound.mem_toList (h : c.Sound) {id : String} {v : Variants Statement}
    (hv : (id, v) ∈ c.statements) {s : Statement} :
    s ∈ v.toList ↔ s ∈ c.registered ∧ s.id = id := by
  have hfind := h.proper.ordered.mem_iff.1 hv
  simp only [Variants.mem_toList (h.proper.dialects_ordered id v hfind),
    h.declared?_eq_some_iff hv, exists_and_left, exists_eq', and_true]

/-- The ids that are listed are those of the registered statements that are no key statements. -/
theorem Sound.mem_ids (h : c.Sound) {id : String} :
    id ∈ c.ids ↔ ∃ s ∈ c.registered, s.id = id ∧ s.isKeyStatement = false := by
  rw [ids, Entries.keys, List.mem_map]
  constructor
  · rintro ⟨⟨_, v⟩, he, rfl⟩
    obtain ⟨hv, hany⟩ := List.mem_filter.1 he
    obtain ⟨s, hs, hkey⟩ := List.any_eq_true.1 hany
    obtain ⟨hs, hid⟩ := (h.mem_toList hv).1 hs
    exact ⟨s, hs, hid, by simpa using hkey⟩
  · rintro ⟨s, hs, rfl, hkey⟩
    have hvariant : c.statements.variant? s.id s.dialect = some s := hs
    obtain ⟨v, hv, -⟩ := Option.bind_eq_some_iff.1 hvariant
    have hmem := h.proper.ordered.mem_iff.2 hv
    refine ⟨(s.id, v), List.mem_filter.2 ⟨hmem, List.any_eq_true.2 ⟨s, ?_, by simp [hkey]⟩⟩, rfl⟩
    exact (h.mem_toList hmem).2 ⟨hs, rfl⟩

/-- Ids are listed in ascending order, each once. -/
theorem Sound.ids_pairwise (h : c.Sound) : c.ids.Pairwise (· < ·) :=
  List.pairwise_map.2 (h.proper.ordered.keys_pairwise.filter _)

end Catalog

/-! ### Adding statements one after another -/

theorem Catalog.admits_eq (c : Catalog) (id : String) (dialect : Option String) :
    c.admits id dialect =
      if ¬ Applies c.dialect dialect then .ok false
      else if (c.statements.variant? id dialect).isSome then .error (.duplicate id)
      else .ok true := by
  rw [Catalog.admits, Catalog.admission, Variants.admission_eq]
  by_cases happly : Applies c.dialect dialect
  · rw [if_neg (not_not.2 happly), if_neg (not_not.2 happly)]
    cases (c.statements.variant? id dialect).isSome <;> rfl
  · rw [if_pos happly, if_pos happly]

/-- A statement is passed over where its dialect does not apply, refused where its id has a
statement for its dialect, and else registered. -/
theorem Loading.add_apply (s : Statement) (d : Draft) :
    Loading.add s d =
      if ¬ Applies d.dialect s.dialect then (.ok none, d)
      else if (d.statements.variant? s.id s.dialect).isSome then (.error (.duplicate s.id), d)
      else (.ok (some s), d.insert s) := by
  rw [Loading.add, bind_apply, Loading.read, Catalog.admits_eq]
  by_cases happly : Applies d.dialect s.dialect
  · rw [if_neg (not_not.2 happly), if_neg (not_not.2 happly)]
    cases (d.statements.variant? s.id s.dialect).isSome <;> rfl
  · rw [if_pos happly, if_pos happly]
    rfl

namespace Draft

open Catalog

/-- The draft after some statements were added one after another, whether they were registered or
not. -/
def addAll (d : Draft) : List Statement → Draft
  | [] => d
  | s :: rest => (Loading.add s d).2.addAll rest

/-- The statements that are registered when some statements are added one after another. -/
def accepted (d : Draft) : List Statement → List Statement
  | [] => []
  | s :: rest =>
    match Loading.add s d with
    | (.ok (some t), d) => t :: d.accepted rest
    | (_, d) => d.accepted rest

/-- Adding statements keeps a catalog sound, and adds the accepted ones to the registered. -/
theorem registered_addAll {d : Draft} (h : d.Sound) (calls : List Statement) :
    (d.addAll calls).Sound ∧
      (d.addAll calls).registered = d.registered ∪ {s | s ∈ d.accepted calls} ∧
      (d.addAll calls).dialect = d.dialect ∧ (d.addAll calls).pending = d.pending := by
  induction calls generalizing d with
  | nil => exact ⟨h, by simp [addAll, accepted], rfl, rfl⟩
  | cons s rest ih =>
    rw [addAll, accepted, Loading.add_apply]
    by_cases happly : Applies d.dialect s.dialect
    · rw [if_neg (not_not.2 happly)]
      cases hold : d.statements.variant? s.id s.dialect with
      | some t => exact ih h
      | none =>
        rw [Option.isSome_none, if_neg Bool.false_ne_true]
        obtain ⟨hsound, hreg, hdialect, hpending⟩ := ih (d := d.insert s) (h.insert s)
        refine ⟨hsound, hreg.trans ?_, hdialect.trans (dialect_insert _ s), hpending⟩
        change (d.toCatalog.insert s).registered ∪ {t | t ∈ (d.insert s).accepted rest} =
          d.registered ∪ {t | t ∈ s :: (d.insert s).accepted rest}
        rw [registered_insert hold, Set.insert_union, ← Set.union_insert]
        congr 1
        ext t
        simp
    · rw [if_pos happly]
      exact ih h

theorem addAll_append (d : Draft) (calls later : List Statement) :
    d.addAll (calls ++ later) = (d.addAll calls).addAll later := by
  induction calls generalizing d with
  | nil => rfl
  | cons s rest ih => exact ih _

/-- Adding statements to an empty catalog leaves a sound one behind, in which the accepted
statements are registered, and which is finished as it is. -/
theorem registered_addAll_of_empty (dialect : Option String) (generatedKeys : Bool)
    (engine : Engine) (calls : List Statement) :
    let start : Draft := { dialect, generatedKeys, engine }
    let d := start.addAll calls
    d.Sound ∧ d.registered = {s | s ∈ start.accepted calls} ∧ d.dialect = dialect ∧
      d.build = .ok d.toCatalog := by
  intro start d
  have hempty : start.Sound := sound_empty rfl rfl
  have hnone : start.registered = ∅ := Set.eq_empty_of_forall_notMem fun s hs => nomatch hs
  obtain ⟨hsound, hreg, hdialect, hpending⟩ := registered_addAll hempty calls
  refine ⟨hsound, ?_, hdialect, ?_⟩
  · rw [hreg, hnone, Set.empty_union]
  · rw [Draft.build, hpending]
    rfl

/-- From an empty catalog on, each call and each look-up is decided by the set of the accepted
statements.

A statement whose dialect does not apply is passed over, one whose id has an accepted statement for
its dialect is a duplicate, and any other is accepted; only then something changes, and what is
accepted stays. The draft and the finished catalog answer alike, and so do catalogs in which the
same statements were accepted, in whatever order. -/
theorem lookups_of_accepted (dialect : Option String) (generatedKeys : Bool) (engine : Engine)
    (calls : List Statement) :
    let start : Draft := { dialect, generatedKeys, engine }
    let d := start.addAll calls
    let A : Set Statement := {s | s ∈ start.accepted calls}
    (∀ s, Loading.add s d =
      if ¬ Applies dialect s.dialect then (.ok none, d)
      else if ∃ t ∈ start.accepted calls, t.id = s.id ∧ t.dialect = s.dialect then
        (.error (.duplicate s.id), d)
      else (.ok (some s), d.insert s)) ∧
    (∀ s ∈ A, ∀ later,
      (start.addAll (calls ++ later)).statements.variant? s.id s.dialect = some s) ∧
    (∀ name r, d.statement name = r ↔ Answer A name dialect r) ∧
    d.build = .ok d.toCatalog ∧
    (∀ name other r, d.toCatalog.statementFor name other = r ↔ Answer A name other r) ∧
    ∀ calls', (∀ s, s ∈ start.accepted calls' ↔ s ∈ A) → ∀ name other,
      (start.addAll calls').statementFor name other = d.statementFor name other := by
  intro start d A
  have hrun := registered_addAll_of_empty dialect generatedKeys engine
  obtain ⟨hsound, hreg, hdialect, hbuild⟩ := hrun calls
  have hlookup (name : String) (other : Option String) (r : Except Failure Statement) :
      d.statementFor name other = r ↔ Answer A name other r := by
    rw [hsound.statementFor_eq_iff, hreg]
  refine ⟨fun s => ?_, fun s hs later => ?_, fun name r => ?_, hbuild, hlookup,
    fun calls' h => ?_⟩
  · rw [Loading.add_apply, hdialect]
    have hheld : (d.statements.variant? s.id s.dialect).isSome = true ↔
        ∃ t ∈ start.accepted calls, t.id = s.id ∧ t.dialect = s.dialect := by
      rw [Option.isSome_iff_exists]
      refine exists_congr fun t => hsound.variant?_eq_some_iff.trans ?_
      rw [hreg, Set.mem_ofPred_eq]
    simp only [hheld]
  · obtain ⟨-, hlater, -, -⟩ := registered_addAll hsound later
    rw [addAll_append]
    have hmem : s ∈ ((start.addAll calls).addAll later).registered := by
      rw [hlater, hreg]
      exact Or.inl hs
    exact hmem
  · rw [Catalog.statement, hdialect]
    exact hlookup name dialect r
  · intro name other
    obtain ⟨hsound', hreg', -, -⟩ := hrun calls'
    have hsame : {s | s ∈ start.accepted calls'} = A := Set.ext h
    refine hsound'.statementFor_eq_iff.2 ?_
    rw [hreg', hsame]
    exact (hlookup name other _).1 rfl

/-- Two namespaces with one short id, and a statement for a dialect beside one for none. -/
theorem lookups_of_accepted_namesakes :
    let source (sql : String) : Source := .fixed sql sql []
    let first : Statement := { id := "a.find", command := .select, source := source "a" }
    let second : Statement := { id := "b.find", command := .select, source := source "b" }
    let variant : Statement :=
      { id := "a.find", command := .select, source := source "c", dialect := some "h2" }
    let start : Draft := {}
    let calls := [first, second, first, variant]
    start.accepted calls = [first, second, variant] ∧
      (start.addAll calls).statement "find" = .error (.ambiguousStatement "find") ∧
      (start.addAll calls).statementFor "b.find" (some "h2") = .ok second ∧
      (start.addAll (calls ++ [first])).statements.variant? "a.find" (some "h2") = some variant ∧
      (start.addAll [variant, second, first]).statementFor "a.find" (some "h2") = .ok variant := by
  intro source first second variant start calls
  have haccepted : start.accepted calls = [first, second, variant] := by
    cbv
  have hreversed : start.accepted [variant, second, first] = [variant, second, first] := by
    cbv
  have hmem (s : Statement) : s ∈ start.accepted calls ↔ s = first ∨ s = second ∨ s = variant := by
    rw [haccepted]
    simp
  obtain ⟨-, hkept, hactive, -, hlookup, horder⟩ := lookups_of_accepted none false {} calls
  have hfirst : Names {s | s ∈ start.accepted calls} "a.find" := ⟨first, (hmem _).2 (by simp), rfl⟩
  have hsecond : Names {s | s ∈ start.accepted calls} "b.find" :=
    ⟨second, (hmem _).2 (by simp), rfl⟩
  refine ⟨haccepted, (hactive _ _).2 (.ambiguous ?_ hfirst hsecond ?_ ?_ ?_),
    (hlookup _ _ _).2 (.fallback ((hmem _).2 (by simp)) ⟨hsecond, .inl rfl⟩ rfl ?_),
    hkept variant ((hmem _).2 (by simp)) _, (horder _ (fun s => ?_) _ _).trans
      ((hlookup _ _ _).2 (.exact ((hmem _).2 (by simp)) ⟨hfirst, .inl rfl⟩ rfl))⟩
  · rintro ⟨s, hs, hid⟩
    rcases (hmem s).1 hs with rfl | rfl | rfl <;> revert hid <;> decide
  · decide
  · decide +kernel
  · decide +kernel
  · intro t ht hid
    rcases (hmem t).1 ht with rfl | rfl | rfl <;> revert hid <;> decide
  · rw [hreversed, Set.mem_ofPred_eq, hmem]
    simp only [List.mem_cons, List.not_mem_nil, or_false]
    tauto

end Draft

end SqlTemplate
