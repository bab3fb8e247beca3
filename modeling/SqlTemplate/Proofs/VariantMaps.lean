import Mathlib.Data.List.Basic
import Mathlib.Data.String.Basic
import SqlTemplate.Catalog.Variants

/-!
# Maps of variants

Statements and fragments are registered alike: under an id, and there for a dialect or for none.
This file reads a map of variants as a function of the two (`Entries.variant?`), says which
dialects may be registered (`Applies`), and says when two maps are equal.

## Main definitions

* `Entries.variant?` : what is registered under an id for exactly a dialect, or for none.
* `Applies` : what is declared for a dialect applies while another, or none, is active.
* `Entries.Proper` : the map is in order, and so are the variants under each id, of which there is
  one at least.

## Main results

* `Entries.variant?_insert` : one entry is registered, and every other stays.
* `Entries.resolve?_eq` : the variant for a dialect, else the fallback, read off `variant?`.
* `Variants.admission_eq` : admission is decided by `Applies` and `variant?`.
* `Entries.Proper.ext` : a proper map is determined by `variant?`.
-/

namespace SqlTemplate

namespace Entries

variable {α : Type} {m n : Entries α}

/-! ### Entries in order -/

theorem mem_insert {key : String} {value : α} {e : String × α} (h : e ∈ m.insert key value) :
    e = (key, value) ∨ e ∈ m := by
  fun_induction insert m key value with
  | case1 key value => exact Or.inl (List.mem_singleton.1 h)
  | case2 v rest key value =>
    exact (List.mem_cons.1 h).imp_right (List.mem_cons_of_mem _)
  | case3 k v rest key value hne hlt => exact List.mem_cons.1 h
  | case4 k v rest key value hne hlt ih =>
    rcases List.mem_cons.1 h with rfl | h
    · exact Or.inr List.mem_cons_self
    · exact (ih h).imp_right (List.mem_cons_of_mem _)

theorem ordered_cons {e : String × α} :
    Ordered (e :: m) ↔ (∀ f ∈ m, e.1 < f.1) ∧ m.Ordered := by
  simp only [Ordered, List.map_cons, List.pairwise_cons, List.forall_mem_map]

theorem Ordered.insert (h : m.Ordered) (key : String) (value : α) :
    (m.insert key value).Ordered := by
  fun_induction Entries.insert m key value with
  | case1 key value => simp [Ordered]
  | case2 v rest key value => exact ordered_cons.2 (ordered_cons.1 h)
  | case3 k v rest key value hne hlt =>
    refine ordered_cons.2 ⟨fun f hf => ?_, h⟩
    rcases List.mem_cons.1 hf with rfl | hf
    · exact hlt
    · exact hlt.trans ((ordered_cons.1 h).1 f hf)
  | case4 k v rest key value hne hlt ih =>
    obtain ⟨hfirst, hrest⟩ := ordered_cons.1 h
    refine ordered_cons.2 ⟨fun f hf => ?_, ih hrest⟩
    rcases mem_insert hf with rfl | hf
    · exact lt_of_le_of_ne (not_lt.1 hlt) hne
    · exact hfirst f hf

theorem mem_of_find? {key : String} {value : α} (h : m.find? key = some value) :
    (key, value) ∈ m := by
  induction m with
  | nil => cases h
  | cons e rest ih =>
    rw [find?] at h
    split at h
    · subst key
      obtain rfl := Option.some.inj h
      exact List.mem_cons_self
    · exact List.mem_cons_of_mem _ (ih h)

theorem Ordered.mem_iff (h : m.Ordered) {key : String} {value : α} :
    (key, value) ∈ m ↔ m.find? key = some value := by
  refine ⟨fun hmem => ?_, mem_of_find?⟩
  induction m with
  | nil => cases hmem
  | cons e rest ih =>
    obtain ⟨hfirst, hrest⟩ := ordered_cons.1 h
    rcases List.mem_cons.1 hmem with rfl | hmem
    · simp [find?]
    · rw [find?, if_neg (hfirst _ hmem).ne, ih hrest hmem]

theorem Ordered.mem_keys_iff (h : m.Ordered) {key : String} :
    key ∈ m.keys ↔ ∃ value, m.find? key = some value := by
  simp only [keys, List.mem_map, Prod.exists, exists_and_right, exists_eq_right, h.mem_iff]

theorem Ordered.keys_pairwise (h : m.Ordered) : m.Pairwise fun e f => e.1 < f.1 :=
  List.pairwise_map.1 h

/-- Maps in order are equal where every key leads to the same. -/
theorem Ordered.ext (hm : m.Ordered) (hn : n.Ordered)
    (h : ∀ key, m.find? key = n.find? key) : m = n := by
  have hnodup {l : Entries α} (hl : l.Ordered) : l.Nodup :=
    hl.keys_pairwise.imp fun hlt he => absurd (congrArg Prod.fst he) hlt.ne
  have hperm : m.Perm n := by
    rw [List.perm_ext_iff_of_nodup (hnodup hm) (hnodup hn)]
    intro e
    rw [hm.mem_iff, hn.mem_iff, h]
  exact hperm.eq_of_pairwise (fun _ _ _ _ hlt hgt => absurd hgt hlt.asymm) hm.keys_pairwise
    hn.keys_pairwise

end Entries

/-! ### Entries for dialects -/

/-- What is declared for a dialect, or for none, applies while a dialect, or none, is active. -/
def Applies (active dialect : Option String) : Prop :=
  active = none ∨ dialect = none ∨ dialect = active

instance (active dialect : Option String) : Decidable (Applies active dialect) :=
  inferInstanceAs (Decidable (_ ∨ _))

namespace Entries

variable {α : Type} {m n : Entries (Variants α)}

/-- What is registered under an id for exactly a dialect, or for none. -/
def variant? (m : Entries (Variants α)) (id : String) (dialect : Option String) : Option α :=
  (m.find? id).bind (·.declared? dialect)

@[simp] theorem variant?_nil (id : String) (dialect : Option String) :
    variant? ([] : Entries (Variants α)) id dialect = none := rfl

theorem declared?_getD (m : Entries (Variants α)) (id : String) (dialect : Option String) :
    ((m.find? id).getD {}).declared? dialect = m.variant? id dialect := by
  rw [variant?]
  cases m.find? id with
  | none => cases dialect <;> rfl
  | some v => rfl

/-- Registering changes one entry. -/
theorem variant?_insert (m : Entries (Variants α)) (id id' : String)
    (dialect dialect' : Option String) (a : α) :
    (m.insert id (((m.find? id).getD {}).insert dialect a)).variant? id' dialect' =
      if id = id' ∧ dialect = dialect' then some a else m.variant? id' dialect' := by
  rw [variant?, find?_insert]
  by_cases hid : id = id'
  · subst id'
    rw [if_pos rfl, Option.bind_some, Variants.declared?_insert, declared?_getD]
    simp
  · rw [if_neg hid, if_neg fun h => hid h.1, variant?]

/-- An entry for an id registers nothing under it. -/
theorem variant?_insert_getD (m : Entries (Variants α)) (id id' : String)
    (dialect : Option String) :
    (m.insert id ((m.find? id).getD {})).variant? id' dialect = m.variant? id' dialect := by
  rw [variant?, find?_insert]
  split
  · rename_i hid
    subst id'
    rw [Option.bind_some, declared?_getD]
  · rw [variant?]

/-- The variant for a dialect is looked for first, then the one for none. -/
theorem resolve?_eq (m : Entries (Variants α)) (id : String) (dialect : Option String) :
    (m.find? id).bind (·.resolve? dialect) =
      (m.variant? id dialect).or (m.variant? id none) := by
  rw [variant?, variant?]
  cases m.find? id with
  | none => rfl
  | some v =>
    cases dialect with
    | none => exact Option.or_self.symm
    | some d => rfl

end Entries

theorem Variants.mem_toList {α : Type} {v : Variants α} (h : v.byDialect.Ordered) {a : α} :
    a ∈ v.toList ↔ ∃ dialect, v.declared? dialect = some a := by
  have hdialects : a ∈ v.byDialect.values ↔ ∃ d, v.byDialect.find? d = some a := by
    rw [Entries.values, List.mem_map]
    constructor
    · rintro ⟨e, he, rfl⟩
      exact ⟨e.1, h.mem_iff.1 he⟩
    · rintro ⟨d, hd⟩
      exact ⟨(d, a), h.mem_iff.2 hd, rfl⟩
  rw [toList, List.mem_append, hdialects, Option.mem_toList]
  constructor
  · rintro (⟨d, hd⟩ | hfallback)
    · exact ⟨some d, hd⟩
    · exact ⟨none, hfallback⟩
  · rintro ⟨_ | d, ha⟩
    · exact Or.inr ha
    · exact Or.inl ⟨d, ha⟩

/-- What does not apply is passed over, and what is registered already is a duplicate. -/
theorem Variants.admission_eq {α : Type} (m : Entries (Variants α)) (id : String)
    (dialect active : Option String) :
    ((m.find? id).getD {}).admission dialect active =
      if ¬ Applies active dialect then .skip
      else if (m.variant? id dialect).isSome then .duplicate else .accept := by
  rw [← Entries.declared?_getD]
  cases dialect with
  | none => cases active <;> simp [admission, Applies]
  | some d =>
    cases active with
    | none => simp [admission, Applies]
    | some a =>
      by_cases h : a = d
      · simp [admission, Applies, h]
      · simp [admission, Applies, h, Ne.symm h]

namespace Entries

variable {α : Type} {m n : Entries (Variants α)}

/-- A map of variants as registering leaves it behind: it is in order, so are the variants under
each id, and there is no id without a variant. -/
structure Proper (m : Entries (Variants α)) : Prop where
  ordered : m.Ordered
  dialects_ordered : ∀ id v, m.find? id = some v → v.byDialect.Ordered
  occupied : ∀ id v, m.find? id = some v → ∃ dialect a, v.declared? dialect = some a

theorem proper_nil : Proper ([] : Entries (Variants α)) where
  ordered := List.Pairwise.nil
  dialects_ordered _ _ h := nomatch h
  occupied _ _ h := nomatch h

theorem Proper.getD_ordered (h : m.Proper) (id : String) :
    ((m.find? id).getD {}).byDialect.Ordered := by
  cases hf : m.find? id with
  | none => exact List.Pairwise.nil
  | some v => exact h.dialects_ordered id v hf

theorem Proper.insert (h : m.Proper) (id : String) (dialect : Option String) (a : α) :
    (m.insert id (((m.find? id).getD {}).insert dialect a)).Proper where
  ordered := h.ordered.insert id _
  dialects_ordered id' v hv := by
    rw [find?_insert] at hv
    split at hv
    · obtain rfl := Option.some.inj hv
      cases dialect with
      | none => exact h.getD_ordered id
      | some d => exact (h.getD_ordered id).insert d a
    · exact h.dialects_ordered id' v hv
  occupied id' v hv := by
    rw [find?_insert] at hv
    split at hv
    · obtain rfl := Option.some.inj hv
      exact ⟨dialect, a, by rw [Variants.declared?_insert, if_pos rfl]⟩
    · exact h.occupied id' v hv

/-- An id is in the map if something is registered under it. -/
theorem Proper.has_iff (h : m.Proper) (id : String) :
    m.has id = true ↔ ∃ dialect, (m.variant? id dialect).isSome = true := by
  rw [has]
  constructor
  · intro hsome
    obtain ⟨v, hv⟩ := Option.isSome_iff_exists.1 hsome
    obtain ⟨dialect, a, ha⟩ := h.occupied id v hv
    exact ⟨dialect, by rw [variant?, hv, Option.bind_some, ha]; rfl⟩
  · rintro ⟨dialect, hsome⟩
    cases hf : m.find? id with
    | none =>
      rw [variant?, hf] at hsome
      exact hsome
    | some v => rfl

/-- Proper maps are equal where the same is registered. -/
theorem Proper.ext (hm : m.Proper) (hn : n.Proper)
    (h : ∀ id dialect, m.variant? id dialect = n.variant? id dialect) : m = n := by
  refine hm.ordered.ext hn.ordered fun id => ?_
  have hhas : m.has id = n.has id := by
    rw [Bool.eq_iff_iff, hm.has_iff, hn.has_iff]
    simp only [h]
  cases hfm : m.find? id with
  | none =>
    rw [has, has, hfm] at hhas
    exact (Option.isNone_iff_eq_none.1 (by simpa using hhas.symm)).symm
  | some v =>
    cases hfn : n.find? id with
    | none =>
      rw [has, has, hfm, hfn] at hhas
      cases hhas
    | some w =>
      have hdeclared (dialect : Option String) : v.declared? dialect = w.declared? dialect := by
        have hd := h id dialect
        rwa [variant?, variant?, hfm, hfn] at hd
      have hdialects : v.byDialect = w.byDialect :=
        (hm.dialects_ordered id v hfm).ext (hn.dialects_ordered id w hfn)
          fun d => hdeclared (some d)
      have hfallback : v.fallback = w.fallback := hdeclared none
      cases v
      cases w
      simp_all

end Entries

end SqlTemplate
