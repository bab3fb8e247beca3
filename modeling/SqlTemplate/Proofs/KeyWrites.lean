import Mathlib
import SqlTemplate.Keys.Generation
import SqlTemplate.Proofs.Outcome
import SqlTemplate.Proofs.PathAssignment

/-!
# Writing keys

The rows that an executor returns call for writes: of the first row into the first record, into one
key property after another, then of the next row into the next record. Which writes these are is
known before the first is made, and a wrong number of rows is refused by then. They are made in
order, up to the first that fails.

## Main definitions

* `KeyWrite`, `KeyWrite.makeAll` : a write of a key, and writes made one after another.
* `KeyGenerator.planned` : the writes that a turn of a generator calls for, or why there are none.

## Main results

* `KeyGenerator.take_eq` : a turn makes the writes that it calls for.
* `KeyWrite.exists_of_makeAll_eq_error` : writes fail at one of them, with those before it made.
* `KeyGenerator.failed_turn_keeps_earlier_writes` : what a turn that fails leaves behind.
-/

namespace SqlTemplate

/-- Storing within one item of a list; where the item is not there, nothing is stored. -/
def Storing.within (i : Nat) (m : Storing Unit) : Storing Unit := fun target =>
  match target with
  | .array items =>
    match items[i]? with
    | some item =>
      let (result, item) := m item
      (result, .array (items.set i item))
    | none => (.ok (), target)
  | target => (.ok (), target)

/-- A write of a key: into the parameter itself or into one of its items, of a value or, where
there is none, of the failure to have it. -/
structure KeyWrite where
  item : Option Nat
  property : String
  value : Except Failure Value

namespace KeyWrite

/-- The same write into an item of a list. -/
def within (i : Nat) (w : KeyWrite) : KeyWrite :=
  { w with item := some i }

/-- Writes the value into a record. -/
def fill (access : Access) (w : KeyWrite) : Storing Unit :=
  match w.value with
  | .ok value => Storing.key access w.property value
  | .error failure => throw failure

/-- Makes a write. -/
def make (access : Access) (w : KeyWrite) : Storing Unit :=
  match w.item with
  | none => w.fill access
  | some i => .within i (w.fill access)

/-- Makes writes one after another, up to the first that fails. -/
def makeAll (access : Access) : List KeyWrite → Storing Unit
  | [] => pure ()
  | w :: rest => do
    w.make access
    makeAll access rest

/-- The writes of a row into the key properties of a record, given with their positions. -/
def ofColumns (d : Definition) (row : Row) (properties : List (String × Nat)) : List KeyWrite :=
  properties.map fun (property, i) =>
    { item := none
      property
      value := match Storing.column? d row i with
        | some value => .ok value
        | none => .error (.keys (.noValue d.id property)) }

/-- The writes of a row into the key properties of a record. -/
def ofRow (d : Definition) (row : Row) : List KeyWrite :=
  ofColumns d row d.keyProperties.zipIdx

/-- The write of a row into a single key property. -/
def ofOnly (d : Definition) (property : String) (row : Row) : KeyWrite where
  item := none
  property
  value := match Storing.only? property row with
    | some value => .ok value
    | none => .error (.keys (.noColumn d.id property))

end KeyWrite

/-- The writes that the answer to a request calls for, or why it is refused before any of them. -/
def KeyRequest.writes (parameter : Value) : KeyRequest → List Row → Except Failure (List KeyWrite)
  | .query key _, rows =>
    (Storing.single key rows).map fun row =>
      match key.keyProperties with
      | [property] => [.ofOnly key property row]
      | _ => KeyWrite.ofRow key row
  | .generated d, rows =>
    match d.keyProperties, rows with
    | [], _ | _, [] => .ok []
    | _ :: _, first :: _ =>
      match parameter with
      | .array items =>
        if items.length < rows.length then
          .error (.keys (.surplus d.id rows.length items.length))
        else .ok (rows.zipIdx.flatMap fun (row, i) => (KeyWrite.ofRow d row).map (·.within i))
      | _ => .ok (KeyWrite.ofRow d first)

/-- The writes that a turn of a generator calls for, or why it fails before any of them. -/
def KeyGenerator.planned (g : KeyGenerator) (executor : KeyExecutor) (engine : Engine)
    (statement : Definition) (before : Bool) (parameter : Value) : Except Failure (List KeyWrite) :=
  match g.request? engine statement before parameter with
  | .error failure => .error failure
  | .ok none => .ok []
  | .ok (some request) => (executor request).bind (request.writes parameter)

/-! ### Writes within an item -/

namespace Storing

theorem within_apply {i : Nat} {items : List Value} {item : Value} (h : items[i]? = some item)
    (m : Storing Unit) :
    within i m (.array items) = ((m item).1, .array (items.set i (m item).2)) := by
  simp only [within, h]
  rfl

theorem within_pure (i : Nat) : within i (pure ()) = pure () := by
  funext target
  cases target with
  | null | bool b | number n | string s | object fields => rfl
  | array items =>
    cases hitem : items[i]? with
    | none =>
      simp only [within, hitem]
      rfl
    | some item =>
      obtain ⟨hlt, rfl⟩ := List.getElem?_eq_some_iff.1 hitem
      rw [within_apply hitem]
      exact congrArg (fun items => (Except.ok (), Value.array items)) (List.set_getElem_self hlt)

/-- What is stored within an item in two steps is stored there one after the other. -/
theorem within_bind (i : Nat) (m n : Storing Unit) :
    within i (m >>= fun _ => n) = within i m >>= fun _ => within i n := by
  funext target
  rw [bind_apply]
  cases target with
  | null | bool b | number n | string s | object fields => rfl
  | array items =>
    cases hitem : items[i]? with
    | none => simp only [within, hitem]
    | some item =>
      have hlt := (List.getElem?_eq_some_iff.1 hitem).1
      rw [within_apply hitem, within_apply hitem, bind_apply]
      rcases hm : m item with ⟨failure | u, left⟩
      · rfl
      · have hleft : (items.set i left)[i]? = some left := by
          rw [List.getElem?_set_self hlt]
        simp only [within_apply hleft, List.set_set]

end Storing

namespace KeyWrite

variable {access : Access}

theorem makeAll_append (writes others : List KeyWrite) :
    makeAll access (writes ++ others) =
      makeAll access writes >>= fun _ => makeAll access others := by
  induction writes with
  | nil => simp [makeAll]
  | cons w writes ih => simp only [List.cons_append, makeAll, ih, bind_assoc]

/-- Writes into the record that is an item are writes into the item. -/
theorem makeAll_within (i : Nat) {writes : List KeyWrite} (h : ∀ w ∈ writes, w.item = none) :
    makeAll access (writes.map (·.within i)) = .within i (makeAll access writes) := by
  induction writes with
  | nil => exact (Storing.within_pure i).symm
  | cons w writes ih =>
    obtain ⟨hw, hwrites⟩ := List.forall_mem_cons.1 h
    have hmake : (w.within i).make access = .within i (w.make access) := by
      rw [make, make, hw]
      rfl
    rw [List.map_cons, makeAll, makeAll, Storing.within_bind, ih hwrites, hmake]

theorem makeAll_ofColumns (d : Definition) (row : Row) (properties : List (String × Nat)) :
    makeAll access (ofColumns d row properties) = Storing.columns access d row properties := by
  induction properties with
  | nil => rfl
  | cons p properties ih =>
    obtain ⟨property, i⟩ := p
    rw [ofColumns, List.map_cons, makeAll, ← ofColumns, ih, Storing.columns]
    cases hcolumn : Storing.column? d row i <;> simp only [make, fill, hcolumn]

theorem makeAll_ofRow (d : Definition) (row : Row) :
    makeAll access (ofRow d row) = Storing.record access d row :=
  makeAll_ofColumns d row d.keyProperties.zipIdx

theorem item_of_mem_ofRow {d : Definition} {row : Row} {w : KeyWrite} (h : w ∈ ofRow d row) :
    w.item = none := by
  obtain ⟨⟨property, i⟩, -, rfl⟩ := List.mem_map.1 h
  rfl

/-- One row after another is written into one record after another, behind the records that are
done. -/
theorem makeAll_records (d : Definition) {rows : List Row} {records : List Value}
    (h : rows.length ≤ records.length) (done : List Value) :
    makeAll access
        ((rows.zipIdx done.length).flatMap fun (row, i) => (ofRow d row).map (·.within i))
        (.array (done ++ records)) =
      ((Storing.records access d rows records).1,
        .array (done ++ (Storing.records access d rows records).2)) := by
  induction rows generalizing done records with
  | nil => rfl
  | cons row rows ih =>
    cases records with
    | nil => exact absurd h (Nat.not_succ_le_zero _)
    | cons record records =>
      have hitem : (done ++ record :: records)[done.length]? = some record := by simp
      rw [List.zipIdx_cons, List.flatMap_cons, makeAll_append,
        makeAll_within _ fun w hw => item_of_mem_ofRow hw, makeAll_ofRow, bind_apply,
        Storing.within_apply hitem, Storing.records]
      rcases hrecord : Storing.record access d row record with ⟨failure | u, left⟩
      · simp
      · have hnext := ih (Nat.le_of_succ_le_succ h) (done ++ [left])
        simpa using hnext

end KeyWrite

/-- An answer is stored by the writes that it calls for. -/
theorem KeyGenerator.store_eq (access : Access) (request : KeyRequest) (rows : List Row)
    (parameter : Value) :
    KeyGenerator.store access request rows parameter =
      match request.writes parameter rows with
      | .ok writes => KeyWrite.makeAll access writes parameter
      | .error failure => (.error failure, parameter) := by
  cases request with
  | query key bound =>
    simp only [store, Storing.selected, KeyRequest.writes]
    cases hsingle : Storing.single key rows with
    | error failure => rfl
    | ok row =>
      simp only [Except.map]
      rcases hproperties : key.keyProperties with _ | ⟨property, _ | ⟨second, properties⟩⟩
      · rw [KeyWrite.makeAll_ofRow]
      · cases hvalue : Storing.only? property row <;>
          simp [KeyWrite.makeAll, KeyWrite.make, KeyWrite.fill, KeyWrite.ofOnly, hvalue]
      · rw [KeyWrite.makeAll_ofRow]
  | generated d =>
    simp only [store, Storing.generated, KeyRequest.writes]
    rcases hproperties : d.keyProperties with _ | ⟨property, properties⟩
    · rfl
    cases rows with
    | nil => rfl
    | cons first rows =>
      cases parameter with
      | null | bool b | number n | string s | object fields => simp only [KeyWrite.makeAll_ofRow]
      | array items =>
        dsimp only
        split
        · rfl
        · rename_i hlength
          exact (KeyWrite.makeAll_records d (Nat.le_of_not_lt hlength) []).symm

/-- A key statement with key properties is bound for its own dialect when its time comes. -/
theorem KeyGenerator.request?_selected {key : Definition} (h : key.keyProperties ≠ [])
    (engine : Engine) (statement : Definition) (before : Bool) (parameter : Value) :
    (selected key before).request? engine statement before parameter =
      (key.bind engine parameter key.dialect).map fun bound => some (.query key bound) := by
  rw [request?, if_pos ⟨rfl, h⟩]

/-- A turn makes the writes that it calls for, or fails before any of them. -/
theorem KeyGenerator.take_eq (g : KeyGenerator) (executor : KeyExecutor) (engine : Engine)
    (statement : Definition) (before : Bool) (parameter : Value) :
    ((g.take executor engine statement before parameter).result,
        (g.take executor engine statement before parameter).parameter) =
      match g.planned executor engine statement before parameter with
      | .ok writes => KeyWrite.makeAll engine.access writes parameter
      | .error failure => (.error failure, parameter) := by
  rw [take, planned]
  rcases g.request? engine statement before parameter with failure | _ | request
  · rfl
  · rfl
  · dsimp only
    cases hrows : executor request with
    | error failure => rfl
    | ok rows =>
      exact store_eq engine.access request rows parameter

namespace KeyWrite

variable {access : Access} {writes : List KeyWrite} {target after : Value} {failure : Failure}

/-- Writes fail at one of them: those before it have been made, and this one fails. -/
theorem exists_of_makeAll_eq_error (h : makeAll access writes target = (.error failure, after)) :
    ∃ done w rest middle, writes = done ++ w :: rest ∧
      makeAll access done target = (.ok (), middle) ∧
      w.make access middle = (.error failure, after) := by
  induction writes generalizing target with
  | nil => cases h
  | cons w writes ih =>
    rw [makeAll, bind_apply] at h
    rcases hmake : w.make access target with ⟨first | u, middle⟩
    · rw [hmake] at h
      exact ⟨[], w, writes, target, rfl, rfl, hmake.trans h⟩
    · rw [hmake] at h
      obtain ⟨done, failing, rest, last, rfl, hdone, hfailing⟩ := ih h
      refine ⟨w :: done, failing, rest, last, rfl, ?_, hfailing⟩
      rw [makeAll, bind_apply, hmake]
      exact hdone

end KeyWrite

/-! ### Sorted parameters -/

/-- In a sorted value, storing leaves a sorted value behind, and where it fails the same value. -/
structure Storing.Atomic (m : Storing Unit) : Prop where
  isSorted : ∀ target, target.IsSorted → (m target).2.IsSorted
  eq_of_error : ∀ target failure, target.IsSorted → (m target).1 = .error failure →
    (m target).2 = target

namespace Storing

theorem atomic_throw (failure : Failure) : Atomic (throw failure) where
  isSorted _ htarget := htarget
  eq_of_error _ _ _ _ := rfl

theorem atomic_key {access : Access} (hset : access.set? = Access.write?) (property : String)
    {value : Value} (hvalue : value.IsSorted) : Atomic (key access property value) where
  isSorted target htarget := (Access.stores_store hset target _ value).isSorted htarget hvalue
  eq_of_error target failure htarget h := by
    refine (Access.stores_store hset target _ value).eq_of_eq_false htarget ?_
    rw [← Bool.not_eq_true]
    intro hwritten
    simp only [key, Access.assign, hwritten] at h
    cases h

theorem Atomic.within {m : Storing Unit} (h : Atomic m) (i : Nat) :
    Atomic (Storing.within i m) where
  isSorted target htarget := by
    cases target with
    | null | bool b | number n | string s | object fields => exact htarget
    | array items =>
      cases hitem : items[i]? with
      | none => simpa only [Storing.within, hitem] using htarget
      | some item =>
        rw [within_apply hitem]
        exact htarget.set i (h.isSorted item (htarget.getElem? hitem))
  eq_of_error target failure htarget herror := by
    cases target with
    | null | bool b | number n | string s | object fields => cases herror
    | array items =>
      cases hitem : items[i]? with
      | none =>
        simp only [Storing.within, hitem] at herror
        cases herror
      | some item =>
        rw [within_apply hitem] at herror ⊢
        obtain ⟨hlt, rfl⟩ := List.getElem?_eq_some_iff.1 hitem
        rw [h.eq_of_error _ failure (htarget.getElem? hitem) herror, List.set_getElem_self]

end Storing

namespace KeyWrite

variable {access : Access}

theorem atomic_make (hset : access.set? = Access.write?) {w : KeyWrite}
    (hvalue : ∀ value, w.value = .ok value → value.IsSorted) : (w.make access).Atomic := by
  have hfill : (w.fill access).Atomic := by
    rw [fill]
    cases hw : w.value with
    | error failure => exact Storing.atomic_throw failure
    | ok value => exact Storing.atomic_key hset w.property (hvalue value hw)
  rw [make]
  cases w.item with
  | none => exact hfill
  | some i => exact hfill.within i

theorem isSorted_makeAll {writes : List KeyWrite} (h : ∀ w ∈ writes, (w.make access).Atomic)
    {target : Value} (htarget : target.IsSorted) :
    (makeAll access writes target).2.IsSorted := by
  induction writes generalizing target with
  | nil => exact htarget
  | cons w writes ih =>
    obtain ⟨hw, hwrites⟩ := List.forall_mem_cons.1 h
    have hleft := hw.isSorted target htarget
    rw [makeAll, bind_apply]
    rcases hmake : w.make access target with ⟨failure | u, left⟩
    · rwa [hmake] at hleft
    · rw [hmake] at hleft
      exact ih hwrites hleft

/-- The value of a write is one that stands in the row. -/
theorem exists_of_mem_ofRow {d : Definition} {row : Row} {w : KeyWrite} (h : w ∈ ofRow d row)
    {value : Value} (hvalue : w.value = .ok value) : ∃ c ∈ row, c.2 = value := by
  obtain ⟨⟨property, i⟩, -, rfl⟩ := List.mem_map.1 h
  dsimp only at hvalue
  cases hcolumn : Storing.column? d row i with
  | none => rw [hcolumn] at hvalue; cases hvalue
  | some v =>
    rw [hcolumn] at hvalue
    obtain rfl := Except.ok.inj hvalue
    rw [Storing.column?] at hcolumn
    split at hcolumn
    · obtain ⟨c, hc, rfl⟩ := Option.map_eq_some_iff.1 hcolumn
      exact ⟨c, List.mem_of_find?_eq_some hc, rfl⟩
    · obtain ⟨c, hc, rfl⟩ := Option.map_eq_some_iff.1 hcolumn
      exact ⟨c, List.mem_of_getElem? hc, rfl⟩

theorem exists_of_ofOnly {d : Definition} {property : String} {row : Row} {value : Value}
    (h : (ofOnly d property row).value = .ok value) : ∃ c ∈ row, c.2 = value := by
  cases honly : Storing.only? property row with
  | none =>
    rw [ofOnly, honly] at h
    cases h
  | some v =>
    rw [ofOnly, honly] at h
    obtain rfl := Except.ok.inj h
    unfold Storing.only? at honly
    split at honly
    · rename_i w hlookup
      obtain rfl := Option.some.inj honly
      obtain ⟨front, rest, rfl, -⟩ := List.lookup_eq_some_iff.1 hlookup
      exact ⟨(property, w), by simp, rfl⟩
    · rename_i column w _
      obtain rfl := Option.some.inj honly
      exact ⟨(column, w), List.mem_singleton_self _, rfl⟩
    · cases honly

end KeyWrite

theorem Storing.eq_of_single {d : Definition} {rows : List Row} {row : Row}
    (h : single d rows = .ok row) : rows = [row] := by
  rcases rows with _ | ⟨first, _ | ⟨second, rows⟩⟩
  · cases h
  · rw [Except.ok.inj h]
  · cases h

/-- The values that an executor returns are sorted. -/
def KeyExecutor.IsSorted (executor : KeyExecutor) : Prop :=
  ∀ request rows, executor request = .ok rows → ∀ row ∈ rows, ∀ c ∈ row, c.2.IsSorted

/-- The writes that an answer calls for have values from its rows. -/
theorem KeyRequest.exists_of_writes {parameter : Value} {request : KeyRequest} {rows : List Row}
    {writes : List KeyWrite} (h : request.writes parameter rows = .ok writes) {w : KeyWrite}
    (hw : w ∈ writes) {value : Value} (hvalue : w.value = .ok value) :
    ∃ row ∈ rows, ∃ c ∈ row, c.2 = value := by
  cases request with
  | query key bound =>
    rw [KeyRequest.writes] at h
    cases hsingle : Storing.single key rows with
    | error failure =>
      rw [hsingle] at h
      cases h
    | ok row =>
      rw [hsingle] at h
      obtain rfl := Storing.eq_of_single hsingle
      obtain rfl := Except.ok.inj h
      refine ⟨row, List.mem_singleton_self row, ?_⟩
      dsimp only at hw
      split at hw
      · obtain rfl := List.mem_singleton.1 hw
        exact KeyWrite.exists_of_ofOnly hvalue
      · exact KeyWrite.exists_of_mem_ofRow hw hvalue
  | generated d =>
    simp only [KeyRequest.writes] at h
    split at h
    · obtain rfl := Except.ok.inj h
      cases hw
    · obtain rfl := Except.ok.inj h
      cases hw
    · rename_i first rows _
      split at h
      · split at h
        · cases h
        · obtain rfl := Except.ok.inj h
          obtain ⟨⟨row, i⟩, hrow, hw⟩ := List.mem_flatMap.1 hw
          obtain ⟨v, hv, rfl⟩ := List.mem_map.1 hw
          exact ⟨row, (List.mem_zipIdx' hrow).2 ▸ List.getElem_mem _,
            KeyWrite.exists_of_mem_ofRow hv hvalue⟩
      · obtain rfl := Except.ok.inj h
        exact ⟨first, List.mem_cons_self, KeyWrite.exists_of_mem_ofRow hw hvalue⟩

namespace KeyGenerator

variable {g : KeyGenerator} {executor : KeyExecutor} {engine : Engine} {statement : Definition}
  {before : Bool} {parameter : Value}

theorem isSorted_of_planned {writes : List KeyWrite}
    (h : g.planned executor engine statement before parameter = .ok writes)
    (hexecutor : executor.IsSorted) :
    ∀ w ∈ writes, ∀ value, w.value = .ok value → value.IsSorted := by
  intro w hw value hvalue
  rw [planned] at h
  split at h
  · cases h
  · obtain rfl := Except.ok.inj h
    cases hw
  · rename_i request _
    cases hrows : executor request with
    | error failure =>
      rw [hrows] at h
      cases h
    | ok rows =>
      rw [hrows] at h
      obtain ⟨row, hrow, c, hc, rfl⟩ := KeyRequest.exists_of_writes h hw hvalue
      exact hexecutor request rows hrows row hrow c hc

/-- A turn fails before its first write and leaves the parameter as it was, or it fails at one of
its writes, with those before it made and no other. -/
theorem failed_turn_keeps_earlier_writes {failure : Failure}
    (h : (g.take executor engine statement before parameter).result = .error failure) :
    g.planned executor engine statement before parameter = .error failure ∧
        (g.take executor engine statement before parameter).parameter = parameter ∨
      ∃ done w rest middle,
        g.planned executor engine statement before parameter = .ok (done ++ w :: rest) ∧
          KeyWrite.makeAll engine.access done parameter = (.ok (), middle) ∧
          w.make engine.access middle =
            (.error failure, (g.take executor engine statement before parameter).parameter) ∧
          (engine.access.set? = Access.write? → parameter.IsSorted → executor.IsSorted →
            (g.take executor engine statement before parameter).parameter = middle) := by
  have hturn := g.take_eq executor engine statement before parameter
  rw [h] at hturn
  cases hplanned : g.planned executor engine statement before parameter with
  | error cause =>
    rw [hplanned] at hturn
    obtain ⟨hcause, hparameter⟩ := Prod.mk.inj hturn
    exact .inl ⟨congrArg Except.error (Except.error.inj hcause).symm, hparameter⟩
  | ok writes =>
    rw [hplanned] at hturn
    obtain ⟨done, w, rest, middle, rfl, hdone, hw⟩ :=
      KeyWrite.exists_of_makeAll_eq_error hturn.symm
    refine .inr ⟨done, w, rest, middle, rfl, hdone, hw, fun hset hparameter hexecutor => ?_⟩
    have hatomic : ∀ v ∈ done ++ w :: rest, (v.make engine.access).Atomic := fun v hv =>
      KeyWrite.atomic_make hset (isSorted_of_planned hplanned hexecutor v hv)
    have hmiddle := KeyWrite.isSorted_makeAll
      (fun v hv => hatomic v (List.mem_append_left _ hv)) hparameter
    rw [hdone] at hmiddle
    have hsame := (hatomic w (by simp)).eq_of_error middle failure hmiddle (congrArg Prod.fst hw)
    rwa [hw] at hsame

/-! ### A batch whose second row is too short -/

namespace Batch

/-- An insertion whose records have two keys each. -/
def insertion : Definition where
  id := "n.add"
  command := .insert
  source := .fixed "INSERT" "INSERT" []
  keyProperties := ["id", "meta.code"]

/-- The row of the first record has two columns, that of the second has one. -/
def rows : List Row :=
  [[("id", .ofNat 1), ("code", .ofNat 7)], [("id", .ofNat 2)]]

/-- Two records without keys. -/
def records : Value :=
  .array [.object [], .object []]

/-- What becomes of the turn after the insertion. -/
def turn : Turn :=
  generated.take (fun _ => .ok rows) {} insertion false records

theorem isSorted_records : records.IsSorted := by
  refine .array fun item hitem => ?_
  simp only [List.mem_cons, List.not_mem_nil, or_false, or_self] at hitem
  exact hitem ▸ .empty

theorem isSorted_rows : KeyExecutor.IsSorted fun _ => .ok rows := by
  rintro request _ ⟨⟩ row hrow c hc
  simp only [rows, List.mem_cons, List.not_mem_nil, or_false] at hrow
  rcases hrow with rfl | rfl
  · simp only [List.mem_cons, List.not_mem_nil, or_false] at hc
    rcases hc with rfl | rfl <;> exact .number _
  · obtain rfl := List.mem_singleton.1 hc
    exact .number _

end Batch

/-- The first record has both of its keys, and the second has one. -/
theorem failed_turn_keeps_earlier_writes_batch :
    Batch.turn.result = .error (.keys (.noValue "n.add" "meta.code")) ∧
      ∃ done w rest middle,
        generated.planned (fun _ => .ok Batch.rows) {} Batch.insertion false Batch.records =
            .ok (done ++ w :: rest) ∧
          KeyWrite.makeAll .lenient done Batch.records = (.ok (), middle) ∧
          Batch.turn.parameter = middle := by
  have hresult : Batch.turn.result = .error (.keys (.noValue "n.add" "meta.code")) := by cbv
  refine ⟨hresult, ?_⟩
  rcases failed_turn_keeps_earlier_writes hresult with
    ⟨hplanned, -⟩ | ⟨done, w, rest, middle, hplanned, hdone, -, hsame⟩
  · cases hplanned
  · exact ⟨done, w, rest, middle, hplanned, hdone,
      hsame rfl Batch.isSorted_records Batch.isSorted_rows⟩

/-- The turn fails, and the records have other fields than before. -/
theorem failed_turn_leaves_keys :
    (∃ failure, Batch.turn.result = .error failure) ∧ Batch.turn.parameter ≠ Batch.records := by
  have hparameter : Batch.turn.parameter =
      .array [.object [("id", .ofNat 1), ("meta", .object [("code", .ofNat 7)])],
        .object [("id", .ofNat 2)]] := by cbv
  refine ⟨⟨.keys (.noValue "n.add" "meta.code"), by cbv⟩, ?_⟩
  rw [hparameter, Batch.records]
  simp

end KeyGenerator

end SqlTemplate
