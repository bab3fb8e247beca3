import SqlTemplate.Proofs.Registry

/-!
# Listings

A catalog lists its statements in the order of their ids, and under one id the statement for no
dialect before those for dialects in their order. Key statements are left out. A listing can be
relied on: what it has was accepted, and each id in it leads to a statement. While a dialect is
active, it does so for the active dialect, and so does each short id that only one id has.

## Main definitions

* `Statement.Precedes` : the order of a listing.

## Main results

* `Catalog.Sound.mem_listing`, `Catalog.Sound.listing_pairwise` : what is listed, and in which
  order.
* `Draft.applies_of_mem_accepted` : the dialects of accepted statements.
* `Draft.listings_of_accepted` : listings and look-ups after any statements were added.
-/

namespace SqlTemplate

/-- The order of a listing: by ids, and under one id by dialects, where the statement for no
dialect comes first. -/
def Statement.Precedes (s t : Statement) : Prop :=
  s.id < t.id ∨ s.id = t.id ∧ s.dialect < t.dialect

/-- A short id is short for itself. -/
theorem shortId_shortId (id : String) : shortId (shortId id) = shortId id := by
  rw [← String.toList_inj, shortId, shortId, Text.toList_mapChars, Text.toList_mapChars,
    Text.afterLast, Text.afterLast, List.reverse_reverse, List.takeWhile_idem]

namespace Catalog

open Statement (Precedes)

variable {c : Catalog}

/-! ### What is listed -/

theorem mem_listed {v : Variants Statement} {s : Statement} : s ∈ listed v ↔ s ∈ v.toList := by
  rw [listed, Variants.toList, List.mem_append, List.mem_append, or_comm]

/-- The registered statements are listed, without the key statements. -/
theorem Sound.mem_listing (h : c.Sound) {s : Statement} :
    s ∈ c.listing ↔ s ∈ c.registered ∧ s.isKeyStatement = false := by
  rw [listing, Entries.values, List.flatMap_map, List.mem_flatMap]
  constructor
  · rintro ⟨⟨id, v⟩, hv, hs⟩
    obtain ⟨hs, hkey⟩ := List.mem_filter.1 hs
    exact ⟨((h.mem_toList hv).1 (mem_listed.1 hs)).1, by simpa using hkey⟩
  · rintro ⟨hs, hkey⟩
    have hvariant : c.statements.variant? s.id s.dialect = some s := hs
    obtain ⟨v, hfind, -⟩ := Option.bind_eq_some_iff.1 hvariant
    have hv := h.proper.ordered.mem_iff.2 hfind
    refine ⟨(s.id, v), hv, List.mem_filter.2 ⟨mem_listed.2 ?_, by simp [hkey]⟩⟩
    exact (h.mem_toList hv).2 ⟨hs, rfl⟩

/-- The statements of one id are listed in the order of their dialects. -/
theorem Sound.listed_pairwise (h : c.Sound) {id : String} {v : Variants Statement}
    (hv : (id, v) ∈ c.statements) : (listed v).Pairwise Precedes := by
  have hdeclared (dialect : Option String) {s : Statement} (hs : v.declared? dialect = some s) :
      s.id = id ∧ s.dialect = dialect :=
    ((h.declared?_eq_some_iff hv).1 hs).2
  have hordered := h.proper.dialects_ordered id v (h.proper.ordered.mem_iff.1 hv)
  have hvalue {e : String × Statement} (he : e ∈ v.byDialect) :
      e.2.id = id ∧ e.2.dialect = some e.1 :=
    hdeclared (some e.1) (hordered.mem_iff.1 he)
  rw [listed, List.pairwise_append, Entries.values, List.pairwise_map]
  refine ⟨?_, ?_, ?_⟩
  · cases v.fallback <;> simp
  · refine hordered.keys_pairwise.imp_of_mem fun {e f} he hf hlt => .inr ?_
    obtain ⟨hid, hdialect⟩ := hvalue he
    obtain ⟨hid', hdialect'⟩ := hvalue hf
    rw [hid, hid', hdialect, hdialect']
    exact ⟨rfl, hlt⟩
  · intro s hs t ht
    obtain ⟨e, he, rfl⟩ := List.mem_map.1 ht
    obtain ⟨hid, hdialect⟩ := hdeclared none (Option.mem_toList.1 hs)
    obtain ⟨hid', hdialect'⟩ := hvalue he
    rw [Precedes, hid, hid', hdialect, hdialect']
    exact .inr ⟨rfl, trivial⟩

/-- Statements are listed in ascending order, each once. -/
theorem Sound.listing_pairwise (h : c.Sound) : c.listing.Pairwise Precedes := by
  rw [listing, Entries.values, List.flatMap_map, List.pairwise_flatMap]
  constructor
  · rintro ⟨id, v⟩ hv
    exact (h.listed_pairwise hv).filter _
  · refine h.proper.ordered.keys_pairwise.imp_of_mem fun {e f} he hf hlt s hs t ht => .inl ?_
    have hs := (h.mem_toList he).1 (mem_listed.1 (List.mem_filter.1 hs).1)
    have ht := (h.mem_toList hf).1 (mem_listed.1 (List.mem_filter.1 ht).1)
    rw [hs.2, ht.2]
    exact hlt

theorem Sound.mem_ids_iff_exists_listed (h : c.Sound) {id : String} :
    id ∈ c.ids ↔ ∃ s ∈ c.listing, s.id = id := by
  rw [h.mem_ids]
  refine exists_congr fun s => ?_
  rw [h.mem_listing]
  tauto

/-! ### Look-ups that succeed -/

/-- Where no statement is for a dialect that is not active, a name that stands for an id leads to a
statement of the id. -/
theorem exists_answer_of_applies {A : Set Statement} {d name id : String}
    (hA : ∀ s ∈ A, Applies (some d) s.dialect) (hname : Means A name id) :
    ∃ s, Answer A name (some d) (.ok s) ∧ s.id = id := by
  obtain ⟨s, hs, rfl⟩ := hname.1
  by_cases hactive : ∃ t ∈ A, t.id = s.id ∧ t.dialect = some d
  · obtain ⟨t, ht, hid, hdialect⟩ := hactive
    exact ⟨t, .exact ht (hid ▸ hname) hdialect, hid⟩
  · have hnone : ∀ t ∈ A, t.id = s.id → t.dialect ≠ some d :=
      fun t ht hid hdialect => hactive ⟨t, ht, hid, hdialect⟩
    have hfallback : s.dialect = none :=
      (((hA s hs).resolve_left (by simp)).resolve_right (hnone s hs rfl))
    exact ⟨s, .fallback hs hname hfallback hnone, rfl⟩

/-- A short id that only one id has stands for it. -/
theorem means_shortId {A : Set Statement} {id : String} (hid : Names A id)
    (honly : ∀ other, Names A other → shortId other = shortId id → other = id) :
    Means A (shortId id) id := by
  refine ⟨hid, ?_⟩
  by_cases hshort : Names A (shortId id)
  · exact .inl (honly _ hshort (shortId_shortId id)).symm
  · exact .inr ⟨hshort, rfl, honly⟩

end Catalog

namespace Draft

open Catalog Statement

/-- What is accepted applies while the dialect of the draft is active. -/
theorem applies_of_mem_accepted {d : Draft} {calls : List Statement} {s : Statement}
    (hs : s ∈ d.accepted calls) : Applies d.dialect s.dialect := by
  induction calls generalizing d with
  | nil => cases hs
  | cons t rest ih =>
    rw [accepted, Loading.add_apply] at hs
    by_cases happly : Applies d.dialect t.dialect
    · rw [if_neg (not_not.2 happly)] at hs
      cases hold : d.statements.variant? t.id t.dialect with
      | some old =>
        rw [hold] at hs
        exact ih hs
      | none =>
        rw [hold] at hs
        rcases List.mem_cons.1 hs with rfl | hs
        · exact happly
        · have hrest := ih hs
          rwa [show (d.insert t).dialect = d.dialect from dialect_insert _ t] at hrest
    · rw [if_pos happly] at hs
      exact ih hs

/-- **Listings.** After any statements were added to an empty catalog, the listing has the accepted
ones that are no key statements, in strictly ascending order, and the ids that are listed are
theirs, in strictly ascending order as well. Each of these ids leads to a statement for some
dialect. While a dialect is active, the id does so for it, and so does each short id that no two
accepted ids have. -/
theorem listings_of_accepted (dialect : Option String) (generatedKeys : Bool) (engine : Engine)
    (calls : List Statement) :
    let start : Draft := { dialect, generatedKeys, engine }
    ∃ c, (start.addAll calls).build = .ok c ∧
      c.listing.Pairwise Precedes ∧
      (∀ s, s ∈ c.listing ↔
        s ∈ start.accepted calls ∧ ¬ keySuffix.toList <:+ s.id.toList) ∧
      c.ids.Pairwise (· < ·) ∧
      (∀ id, id ∈ c.ids ↔ ∃ s ∈ c.listing, s.id = id) ∧
      (∀ id ∈ c.ids, ∃ other s, c.statementFor id other = .ok s ∧ s.id = id) ∧
      (dialect ≠ none →
        (∀ id ∈ c.ids, ∃ s, c.statement id = .ok s ∧ s.id = id) ∧
        ∀ short id, (∃ s ∈ start.accepted calls, s.id = id) → shortId id = short →
          (∀ s ∈ start.accepted calls, shortId s.id = short → s.id = id) →
          ∃ s, c.statement short = .ok s ∧ s.id = id) := by
  intro start
  obtain ⟨hsound, hreg, hdialect, hbuild⟩ :=
    registered_addAll_of_empty dialect generatedKeys engine calls
  set c := (start.addAll calls).toCatalog
  have hsuffix (s : Statement) :
      s.isKeyStatement = false ↔ ¬ keySuffix.toList <:+ s.id.toList := by
    rw [Definition.isKeyStatement, ← List.isSuffixOf_iff_suffix, Bool.not_eq_true]
  have hids {id : String} (hid : id ∈ c.ids) : Means c.registered id id := by
    obtain ⟨s, hs, rfl, -⟩ := hsound.mem_ids.1 hid
    exact ⟨⟨s, hs, rfl⟩, .inl rfl⟩
  refine ⟨c, hbuild, hsound.listing_pairwise, fun s => ?_, hsound.ids_pairwise,
    fun id => hsound.mem_ids_iff_exists_listed, fun id hid => ?_, fun hactive => ?_⟩
  · rw [hsound.mem_listing, hreg, hsuffix]
    rfl
  · obtain ⟨s, hs, rfl⟩ := (hids hid).1
    exact ⟨s.dialect, s, hsound.statementFor_eq_iff.2 (.exact hs (hids hid) rfl), rfl⟩
  · obtain ⟨d, rfl⟩ := Option.ne_none_iff_exists'.1 hactive
    have happly : ∀ s ∈ c.registered, Applies (some d) s.dialect := by
      rw [hreg]
      exact fun s hs => applies_of_mem_accepted hs
    have hstatement {name id : String} (hname : Means c.registered name id) :
        ∃ s, c.statement name = .ok s ∧ s.id = id := by
      obtain ⟨s, hanswer, hid⟩ := exists_answer_of_applies happly hname
      rw [← hdialect] at hanswer
      exact ⟨s, hsound.statementFor_eq_iff.2 hanswer, hid⟩
    refine ⟨fun id hid => hstatement (hids hid), ?_⟩
    rintro short id hid rfl honly
    refine hstatement (means_shortId ?_ ?_)
    · rwa [hreg]
    · rw [hreg]
      rintro other ⟨s, hs, rfl⟩ hshort
      exact honly s hs hshort

/-- A statement for the active dialect beside one for none, one for a dialect that is not active,
and a key statement, which is not listed but found under its short id. -/
theorem listings_of_accepted_h2 :
    let source : Source := .fixed "" "" []
    let find : Statement := { id := "a.find", command := .select, source }
    let variant : Statement := { find with dialect := some "h2" }
    let foreign : Statement := { find with dialect := some "db2" }
    let key : Statement := { find with id := "a.add!selectKey" }
    let start : Draft := { dialect := some "h2" }
    let calls := [key, variant, foreign, find, find]
    start.accepted calls = [key, variant, find] ∧
      ∃ c, (start.addAll calls).build = .ok c ∧
        (∀ s, s ∈ c.listing ↔ s = variant ∨ s = find) ∧
        (∃ s, c.statement "a.find" = .ok s ∧ s.id = "a.find") ∧
        (∃ s, c.statement "find" = .ok s ∧ s.id = "a.find") ∧
        ∃ s, c.statement "add!selectKey" = .ok s ∧ s.id = "a.add!selectKey" := by
  intro source find variant foreign key start calls
  have haccepted : start.accepted calls = [key, variant, find] := by
    cbv
  have hmem (s : Statement) : s ∈ start.accepted calls ↔ s = key ∨ s = variant ∨ s = find := by
    rw [haccepted]
    simp
  obtain ⟨c, hbuild, -, hlisting, -, hids, -, hactive⟩ :=
    listings_of_accepted (some "h2") false {} calls
  obtain ⟨hid, hshort⟩ := hactive (by simp)
  have hsuffix : keySuffix.toList <:+ key.id.toList ∧ ¬ keySuffix.toList <:+ find.id.toList := by
    decide
  have hlisted (s : Statement) : s ∈ c.listing ↔ s = variant ∨ s = find := by
    rw [hlisting, hmem]
    constructor
    · rintro ⟨rfl | rfl | rfl, hs⟩
      exacts [absurd hsuffix.1 hs, .inl rfl, .inr rfl]
    · rintro (rfl | rfl)
      exacts [⟨.inr (.inl rfl), hsuffix.2⟩, ⟨.inr (.inr rfl), hsuffix.2⟩]
  have hfind : shortId "a.find" = "find" ∧ shortId "a.add!selectKey" = "add!selectKey" := by
    cbv
  refine ⟨haccepted, c, hbuild, hlisted,
    hid "a.find" ((hids _).2 ⟨find, (hlisted _).2 (.inr rfl), rfl⟩),
    hshort "find" "a.find" ⟨find, (hmem _).2 (.inr (.inr rfl)), rfl⟩ hfind.1 ?_,
    hshort "add!selectKey" "a.add!selectKey" ⟨key, (hmem _).2 (.inl rfl), rfl⟩ hfind.2 ?_⟩
  · intro s hs hname
    rcases (hmem s).1 hs with rfl | rfl | rfl
    exacts [absurd (hname.symm.trans hfind.2) (by decide), rfl, rfl]
  · intro s hs hname
    rcases (hmem s).1 hs with rfl | rfl | rfl
    exacts [rfl, absurd (hname.symm.trans hfind.1) (by decide),
      absurd (hname.symm.trans hfind.1) (by decide)]

end Draft

end SqlTemplate
