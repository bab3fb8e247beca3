import Mathlib
import SqlTemplate.Proofs.KeyWrites

/-!
# Writes side by side

Several keys are written into one record, each along a path of its own. A write leaves alone what a
path that parts from its own leads to, and not only the value: what is there is there afterwards,
and what is missing stays missing. It also leaves all paths where they go, since the containers on
the way of a write keep their kinds, and null, where it becomes an object, already counts as an
empty one. So paths that part before the first write part before every later one, and in the end
each path leads to the value that was written along it.

## Main definitions

* `Access.exact` : the policy under which a value has only the attributes that are there.

## Main results

* `Access.Stores.exact_follow?_of_parts` : a write and a path that parts from its own.
* `Access.Stores.slots_of_parts`, `Access.Stores.slots_self` : a write changes no slot.
* `KeyWrite.reads_of_makeAll` : what is read after writes along paths that part.
-/

namespace SqlTemplate

open Text

namespace Access

/-- The policy under which a value has only the attributes that are there: the fields of an object,
and the items of a list at positions before its end. -/
def exact : Access where
  get?
    | .object fields, name => Entries.find? fields name
    | .array items, key => (position? key.toList).bind fun i => items[i]?
    | _, _ => none
  set? := write?

/-! ### What is there -/

/-- A write into a container is what is there in its slot, and the other slots are as before. -/
theorem exact_get?_write? {target value written : Value} {key : String}
    (h : write? target key value = some written) (other : String) :
    exact.get? written other =
      if slot? target other = slot? target key then some value else exact.get? target other := by
  cases target with
  | null | bool b | number n | string s => cases h
  | object fields =>
    obtain rfl := Option.some.inj h
    simp only [exact, slot?, Entries.find?_insert, Option.some.injEq, Slot.field.injEq,
      @eq_comm _ other]
  | array items =>
    obtain ⟨i, hi, hlt, rfl⟩ := exists_of_write?_array h
    simp only [exact, slot?, hi]
    cases hj : position? other.toList with
    | none => simp
    | some j =>
      by_cases hij : i = j
      · simp [hij, hij ▸ hlt]
      · simp [List.getElem?_set_ne hij, Ne.symm hij]

theorem exact_get?_congr {root : Value} {key other : String}
    (h : slot? root key = slot? root other) : exact.get? root key = exact.get? root other := by
  cases root with
  | null | bool b | number n | string s => rfl
  | object fields => rw [Slot.field.inj (Option.some.inj h)]
  | array items =>
    simp only [slot?] at h
    simp only [exact]
    cases hk : position? key.toList <;> cases ho : position? other.toList <;> simp_all

theorem exact_get?_opened (root : Value) (key : String) :
    exact.get? root.opened key = exact.get? root key := by
  cases root <;> rfl

/-- A write goes on in what is there, or in an empty object where nothing is. -/
theorem exact_get?_of_next? {root next : Value} {key : String} (h : next? root key = some next) :
    exact.get? root key = some next ∨ exact.get? root key = none ∧ next = .object [] := by
  cases root with
  | bool b | number n | string s => cases h
  | null => exact .inr ⟨rfl, (Option.some.inj h).symm⟩
  | object fields =>
    obtain rfl := Option.some.inj h
    simp only [exact]
    cases Entries.find? fields key with
    | none => exact .inr ⟨rfl, rfl⟩
    | some v => exact .inl rfl
  | array items => exact .inl h

theorem exact_follow?_empty {keys : List String} (h : keys ≠ []) :
    exact.follow? (.object []) keys = none := by
  cases keys with
  | nil => exact absurd rfl h
  | cons key rest => rfl

/-- What is there is read under the policy that reads null where nothing is. -/
theorem lenient_follow?_of_exact {root v : Value} {keys : List String}
    (h : exact.follow? root keys = some v) : lenient.follow? root keys = some v := by
  induction keys generalizing root with
  | nil => exact h
  | cons key rest ih =>
    obtain ⟨next, hnext, hrest⟩ := Option.bind_eq_some_iff.1 h
    have hget : lenient.get? root key = some next := by
      cases root with
      | null | bool b | number n | string s => cases hnext
      | object fields =>
        simp only [exact] at hnext
        simp only [lenient, hnext, Option.getD_some]
      | array items =>
        obtain ⟨i, hi, hitem⟩ := Option.bind_eq_some_iff.1 hnext
        simp only [lenient, item?, hi, hitem, Option.map_some, Option.getD_some]
    rw [follow?, hget]
    exact ih hrest

/-! ### Slots -/

/-- A container keeps its kind, so that keys select in it what they selected. -/
theorem slot?_write? {target value written : Value} {key : String}
    (h : write? target key value = some written) (other : String) :
    slot? written other = slot? target other := by
  cases target with
  | null | bool b | number n | string s => cases h
  | object fields =>
    obtain rfl := Option.some.inj h
    rfl
  | array items =>
    obtain ⟨i, -, -, rfl⟩ := exists_of_write?_array h
    rfl

theorem Parts.symm {root : Value} {keys others : List String} (h : Parts root keys others) :
    Parts root others keys := by
  obtain ⟨i, slot, other, hslot, hother, hne⟩ := h
  exact ⟨i, other, slot, hother, hslot, hne.symm⟩

theorem Parts.congr {root changed : Value} {keys others : List String}
    (hkeys : slots changed keys = slots root keys)
    (hothers : slots changed others = slots root others) (h : Parts root keys others) :
    Parts changed keys others := by
  rwa [Parts, hkeys, hothers]

namespace Stores

variable {value root written : Value} {keys others : List String} {done : Bool}

/-- What was written is there at the end of its keys. -/
theorem exact_follow?_eq (h : Stores value root keys done written) (hdone : done = true) :
    exact.follow? written keys = some value := by
  induction h with
  | nowhere | refused | null => cases hdone
  | last hwrite => simp [follow?, exact_get?_write? hwrite]
  | behind hrest hnext h hwrite ih => simp [follow?, exact_get?_write? hwrite, ih hdone]

/-- Whatever becomes of a write, what is there at the end of keys that part from its own is there
afterwards, and nothing else is. -/
theorem exact_follow?_of_parts (h : Stores value root keys done written)
    (hparts : Parts root keys others) :
    exact.follow? written others = exact.follow? root others := by
  induction h generalizing others with
  | nowhere | refused | null => rfl
  | last hwrite =>
    obtain ⟨_, _, other, behind, hkeys, rfl, hslot | ⟨-, hbehind⟩⟩ := exists_of_parts hparts
    · obtain ⟨rfl, -⟩ := List.cons.inj hkeys
      rw [follow?, follow?, exact_get?_write? hwrite, if_neg hslot]
    · obtain ⟨rfl, rfl⟩ := List.cons.inj hkeys
      obtain ⟨_, _, _, _, hnil, -⟩ := exists_of_parts hbehind
      cases hnil
  | @behind root next left written key rest done hrest hnext h hwrite ih =>
    obtain ⟨_, _, other, behind, hkeys, rfl, hcase⟩ := exists_of_parts hparts
    obtain ⟨rfl, rfl⟩ := List.cons.inj hkeys
    rw [follow?, follow?, exact_get?_write? hwrite, slot?_opened, slot?_opened, exact_get?_opened]
    obtain hslot | ⟨hslot, hbehind⟩ := hcase
    · rw [if_neg hslot]
    · have hnextparts : Parts next rest behind := by
        simpa only [Parts, slots_opened (opened_of_next? hnext)] using hbehind
      rw [if_pos hslot, Option.bind_some, ih hnextparts, exact_get?_congr hslot]
      rcases exact_get?_of_next? hnext with hget | ⟨hget, rfl⟩
      · rw [hget, Option.bind_some]
      · -- the empty object that the write made has no more attributes than what was missing
        obtain ⟨_, _, first, tail, -, rfl, -⟩ := exists_of_parts hbehind
        rw [hget, Option.bind_none, exact_follow?_empty (List.cons_ne_nil first tail)]

/-- The keys of a write select afterwards what they selected before. -/
theorem slots_self (h : Stores value root keys done written) :
    slots written keys = slots root keys := by
  induction h with
  | nowhere | refused | null => rfl
  | last hwrite => rw [slots, slots, slots, slots, slot?_write? hwrite]
  | behind hrest hnext h hwrite ih =>
    rw [slots, slots, slot?_write? hwrite, slot?_opened, child_write? hwrite, if_pos rfl, ih,
      slots_opened (opened_of_next? hnext)]

/-- Keys that part from those of a write select afterwards what they selected before. -/
theorem slots_of_parts (h : Stores value root keys done written) (hparts : Parts root keys others) :
    slots written others = slots root others := by
  induction h generalizing others with
  | nowhere | refused | null => rfl
  | last hwrite =>
    obtain ⟨_, _, other, behind, hkeys, rfl, hslot | ⟨-, hbehind⟩⟩ := exists_of_parts hparts
    · obtain ⟨rfl, -⟩ := List.cons.inj hkeys
      rw [slots, slots, slot?_write? hwrite, child_write? hwrite, if_neg hslot]
    · obtain ⟨rfl, rfl⟩ := List.cons.inj hkeys
      obtain ⟨_, _, _, _, hnil, -⟩ := exists_of_parts hbehind
      cases hnil
  | @behind root next left written key rest done hrest hnext h hwrite ih =>
    obtain ⟨_, _, other, behind, hkeys, rfl, hcase⟩ := exists_of_parts hparts
    obtain ⟨rfl, rfl⟩ := List.cons.inj hkeys
    rw [slots, slots, slot?_write? hwrite, slot?_opened, child_write? hwrite, slot?_opened,
      slot?_opened, child_opened]
    obtain hslot | ⟨hslot, hbehind⟩ := hcase
    · rw [if_neg hslot]
    · have hopened := opened_of_next? hnext
      have hnextparts : Parts next rest behind := by
        simpa only [Parts, slots_opened hopened] using hbehind
      rw [if_pos hslot, ih hnextparts, slots_opened hopened, child_congr hslot]

end Stores

end Access

/-! ### One write after another -/

/-- A key that is stored is written along its path. -/
theorem Storing.stores_of_key {access : Access} (hset : access.set? = Access.write?)
    {property : String} {value target after : Value}
    (h : key access property value target = (.ok (), after)) :
    Access.Stores value target (PropertyPath.keys property) true after := by
  have hstores : Access.Stores value target (PropertyPath.keys property)
      (access.assign target property value).1 (access.assign target property value).2 :=
    Access.stores_store hset target (PropertyPath.keys property) value
  rw [key] at h
  rcases hassign : access.assign target property value with ⟨_ | _, written⟩
  · rw [hassign] at h
    cases (Prod.mk.inj h).1
  · rw [hassign] at h hstores
    rwa [(Prod.mk.inj h).2] at hstores

namespace KeyWrite

variable {access : Access} {w : KeyWrite} {writes : List KeyWrite} {target after : Value}

/-- The paths of two writes part in a record. -/
def PartsFrom (target : Value) (w v : KeyWrite) : Prop :=
  Access.Parts target (PropertyPath.keys w.property) (PropertyPath.keys v.property)

/-- A write into a record that succeeds has a value and stores it along its path. -/
theorem exists_stores_of_make (hset : access.set? = Access.write?) (hitem : w.item = none)
    (h : w.make access target = (.ok (), after)) :
    ∃ value, w.value = .ok value ∧
      Access.Stores value target (PropertyPath.keys w.property) true after := by
  rw [make, hitem] at h
  dsimp only at h
  rw [fill] at h
  cases hvalue : w.value with
  | error failure =>
    rw [hvalue] at h
    cases (Prod.mk.inj h).1
  | ok value =>
    rw [hvalue] at h
    exact ⟨value, rfl, Storing.stores_of_key hset h⟩

/-- After writes into a record along paths that part, each path leads to the value that was written
along it, and a path that parts from all of them leads to what it led to before. -/
theorem reads_of_makeAll (hset : access.set? = Access.write?) (hitems : ∀ w ∈ writes, w.item = none)
    (hparts : writes.Pairwise (PartsFrom target))
    (h : makeAll access writes target = (.ok (), after)) :
    (∀ w ∈ writes, ∃ value, w.value = .ok value ∧
      Access.exact.follow? after (PropertyPath.keys w.property) = some value) ∧
    ∀ others, (∀ w ∈ writes, Access.Parts target (PropertyPath.keys w.property) others) →
      Access.exact.follow? after others = Access.exact.follow? target others := by
  induction writes generalizing target with
  | nil =>
    obtain rfl := (Prod.mk.inj h).2
    exact ⟨fun w hw => (nomatch hw), fun others _ => rfl⟩
  | cons w writes ih =>
    obtain ⟨hitem, hitems⟩ := List.forall_mem_cons.1 hitems
    obtain ⟨hfirst, hlater⟩ := List.pairwise_cons.1 hparts
    rw [makeAll] at h
    obtain ⟨u, middle, hmake, hrest⟩ := exists_of_bind_apply_eq_ok h
    obtain ⟨value, hvalue, hstores⟩ := exists_stores_of_make hset hitem hmake
    have hslots (v : KeyWrite) (hv : v ∈ writes) := hstores.slots_of_parts (hfirst v hv)
    have hmiddle : writes.Pairwise (PartsFrom middle) :=
      hlater.imp_of_mem fun hv hx hvx => hvx.congr (hslots _ hv) (hslots _ hx)
    obtain ⟨hread, hframe⟩ := ih hitems hmiddle hrest
    refine ⟨List.forall_mem_cons.2 ⟨⟨value, hvalue, ?_⟩, hread⟩, fun others hothers => ?_⟩
    · rw [hframe _ fun v hv => (hfirst v hv).symm.congr (hslots v hv) hstores.slots_self]
      exact hstores.exact_follow?_eq rfl
    · obtain ⟨hother, hothers⟩ := List.forall_mem_cons.1 hothers
      rw [hframe others fun v hv =>
        (hothers v hv).congr (hslots v hv) (hstores.slots_of_parts hother)]
      exact hstores.exact_follow?_of_parts hother

end KeyWrite

end SqlTemplate
