import Mathlib
import SqlTemplate.Proofs.SortedValues
import SqlTemplate.Property.Access

/-!
# Writing along a path

A write goes from one container to the next, key after key. It goes on in what stands under a key,
and in an empty object where a field is missing or where null is to hold a key that is not the last.
Once it is in an object that it made itself, no key can be refused any more. So a write that is
refused has made nothing, and one that is not has changed one slot in each container on its way.

## Main definitions

* `Slot`, `Access.slots` : the places that keys select in the containers along a path.
* `Access.Parts` : two paths select different slots in one of the containers on their way.
* `Access.Blocked` : a container on the way refuses its key.
* `Access.Stores` : what a write does in each of the containers, as a relation.

## Main results

* `Access.stores_store` : a write is of this kind.
* `Access.assign_lawful` : a path leads to what was written at its end, and every path that parts
  from it leads to what it led to before.
* `Access.assign_refused_iff` : the writes that are refused.
* `Access.eq_of_assign_refused` : a write that is refused changes nothing.
-/

namespace SqlTemplate

open Text

/-- The keys that a path looks up, one after another. -/
def PropertyPath.keys (path : String) : List String :=
  (steps path).map Step.key

/-- A place in a container. -/
inductive Slot where
  | field (name : String)
  | item (i : Nat)
  deriving DecidableEq, Repr

/-- A value as a write finds it: null is read as an object without fields. -/
def Value.opened : Value → Value
  | .null => .object []
  | v => v

namespace Access

/-- What a key selects in a value: the field of its name in an object, and in null, which a write
reads as an object, and the item at the position that it writes in a list. -/
def slot? (root : Value) (key : String) : Option Slot :=
  match root with
  | .null | .object _ => some (.field key)
  | .array _ => (position? key.toList).map .item
  | .bool _ | .number _ | .string _ => none

/-- What stands under a key; null where nothing does. -/
def child (root : Value) (key : String) : Value :=
  (lenient.get? root key).getD .null

/-- What keys lead to; null where they lead nowhere. -/
def reached (root : Value) (keys : List String) : Value :=
  (lenient.follow? root keys).getD .null

/-- The slots that keys select, each in what the keys before it lead to. -/
def slots : Value → List String → List (Option Slot)
  | _, [] => []
  | root, key :: rest => slot? root key :: slots (child root key) rest

/-- There is a step at which two lists of keys select different slots. -/
def Parts (root : Value) (keys others : List String) : Prop :=
  ∃ (i : Nat) (slot other : Option Slot),
    (slots root keys)[i]? = some slot ∧ (slots root others)[i]? = some other ∧ slot ≠ other

/-- A list refuses what is no position in it; a boolean, a number and a string refuse every key. -/
def Refuses (root : Value) (key : String) : Prop :=
  match root with
  | .null | .object _ => False
  | .array items => ∀ i, position? key.toList = some i → items.length ≤ i
  | .bool _ | .number _ | .string _ => True

/-- Something on the way along keys refuses the next of them. -/
def Blocked (root : Value) (keys : List String) : Prop :=
  ∃ front key rest, keys = front ++ key :: rest ∧ Refuses (reached root front) key

/-- The value in which a write goes on behind a key that is not the last. -/
def next? (root : Value) (key : String) : Option Value :=
  match root with
  | .null => some (.object [])
  | .object fields => some ((Entries.find? fields key).getD (.object []))
  | .array items => (position? key.toList).bind fun i => items[i]?
  | .bool _ | .number _ | .string _ => none

/-- What a write of a value does: whether it succeeds, and the root before and after it. -/
inductive Stores (value : Value) : Value → List String → Bool → Value → Prop
  /-- There is no key to write under. -/
  | nowhere (root : Value) : Stores value root [] false root
  | refused {root : Value} {key : String} {rest : List String} (h : Refuses root key) :
    Stores value root (key :: rest) false root
  /-- Null is no object where it has to hold the last key. -/
  | null (key : String) : Stores value .null [key] false .null
  | last {root written : Value} {key : String} (h : write? root key value = some written) :
    Stores value root [key] true written
  /-- The write goes on behind a key, and what it leaves there is put back. -/
  | behind {root next left written : Value} {key : String} {rest : List String} {done : Bool}
    (hrest : rest ≠ []) (hnext : next? root key = some next) (h : Stores value next rest done left)
    (hwrite : write? root.opened key left = some written) :
    Stores value root (key :: rest) done written

/-! ### One container -/

theorem exists_of_write?_array {items : List Value} {value written : Value} {key : String}
    (h : write? (.array items) key value = some written) :
    ∃ i, position? key.toList = some i ∧ i < items.length ∧
      written = .array (items.set i value) := by
  obtain ⟨changed, hchanged, rfl⟩ := Option.map_eq_some_iff.1 h
  obtain ⟨i, hi, hset⟩ := Option.bind_eq_some_iff.1 hchanged
  obtain ⟨hlt, hset⟩ := Option.ite_none_right_eq_some.1 hset
  obtain rfl := Option.some.inj hset
  exact ⟨i, hi, hlt, rfl⟩

/-- A write into a container is read from its slot, and from no other. -/
theorem get?_write? {target value written : Value} {key : String}
    (h : write? target key value = some written) (other : String) :
    lenient.get? written other =
      if slot? target other = slot? target key then some value else lenient.get? target other := by
  cases target with
  | null | bool b | number n | string s => cases h
  | object fields =>
    obtain rfl := Option.some.inj h
    simp only [lenient, slot?, Entries.find?_insert, Option.some.injEq, Slot.field.injEq,
      @eq_comm _ other]
    split <;> rfl
  | array items =>
    obtain ⟨i, hi, hlt, rfl⟩ := exists_of_write?_array h
    simp only [lenient, slot?, item?, hi]
    cases hj : position? other.toList with
    | none => simp
    | some j =>
      by_cases hij : i = j
      · simp [hij, hij ▸ hlt]
      · simp [List.getElem?_set_ne hij, Ne.symm hij]

theorem child_write? {target value written : Value} {key : String}
    (h : write? target key value = some written) (other : String) :
    child written other =
      if slot? target other = slot? target key then value else child target other := by
  rw [child, get?_write? h]
  split <;> rfl

theorem child_congr {root : Value} {key other : String} (h : slot? root key = slot? root other) :
    child root key = child root other := by
  cases root with
  | null | bool b | number n | string s => rfl
  | object fields => rw [Slot.field.inj (Option.some.inj h)]
  | array items =>
    simp only [slot?] at h
    simp only [child, lenient, item?]
    cases hk : position? key.toList <;> cases ho : position? other.toList <;> simp_all

theorem write?_eq_none_iff {target value : Value} {key : String} :
    write? target key value = none ↔ target = .null ∨ Refuses target key := by
  cases target with
  | null | bool b | number n | string s | object fields => simp [write?, Refuses]
  | array items => simp [write?, setItem?, Refuses]

theorem next?_eq_none_iff {root : Value} {key : String} :
    next? root key = none ↔ Refuses root key := by
  cases root with
  | null | bool b | number n | string s | object fields => simp [next?, Refuses]
  | array items => simp [next?, Refuses]

theorem isSorted_of_write? {target value written : Value} {key : String}
    (h : write? target key value = some written) (htarget : target.IsSorted)
    (hvalue : value.IsSorted) : written.IsSorted := by
  cases target with
  | null | bool b | number n | string s => cases h
  | object fields =>
    obtain rfl := Option.some.inj h
    exact htarget.insert key hvalue
  | array items =>
    obtain ⟨i, -, -, rfl⟩ := exists_of_write?_array h
    exact htarget.set i hvalue

theorem isSorted_of_next? {root next : Value} {key : String} (h : next? root key = some next)
    (hroot : root.IsSorted) : next.IsSorted := by
  cases root with
  | bool b | number n | string s => cases h
  | null =>
    obtain rfl := Option.some.inj h
    exact .empty
  | object fields =>
    obtain rfl := Option.some.inj h
    cases hfind : Entries.find? fields key with
    | none => exact .empty
    | some v => exact hroot.find? hfind
  | array items =>
    obtain ⟨i, -, hitem⟩ := Option.bind_eq_some_iff.1 h
    exact hroot.getElem? hitem

/-! ### Null and the empty object -/

theorem isSorted_opened {root : Value} (h : root.IsSorted) : root.opened.IsSorted := by
  cases root with
  | null => exact .empty
  | bool b | number n | string s | object fields | array items => exact h

theorem refuses_opened {root : Value} {key : String} :
    Refuses root.opened key ↔ Refuses root key := by
  cases root <;> rfl

theorem slot?_opened (root : Value) (key : String) : slot? root.opened key = slot? root key := by
  cases root <;> rfl

theorem child_opened (root : Value) (key : String) : child root.opened key = child root key := by
  cases root <;> rfl

/-- A write goes on in what stands under a key, but for null in the place of an empty object. -/
theorem opened_of_next? {root next : Value} {key : String} (h : next? root key = some next) :
    next.opened = (child root key).opened := by
  cases root with
  | bool b | number n | string s => cases h
  | null =>
    obtain rfl := Option.some.inj h
    rfl
  | object fields =>
    obtain rfl := Option.some.inj h
    simp only [child, lenient]
    cases Entries.find? fields key <;> rfl
  | array items =>
    obtain ⟨i, hi, hitem⟩ := Option.bind_eq_some_iff.1 h
    simp [child, lenient, item?, hi, hitem]

/-- Where a write does not go on in what stands under a key, nothing does. -/
theorem strict_get?_of_next? {root next : Value} {key : String} (h : next? root key = some next) :
    strict.get? root key = some next ∨ strict.get? root key = none ∧ next = .object [] := by
  cases root with
  | bool b | number n | string s => cases h
  | null => exact .inr ⟨rfl, (Option.some.inj h).symm⟩
  | object fields =>
    obtain rfl := Option.some.inj h
    simp only [strict]
    cases Entries.find? fields key with
    | none => exact .inr ⟨rfl, rfl⟩
    | some v => exact .inl rfl
  | array items =>
    obtain ⟨i, hi, hitem⟩ := Option.bind_eq_some_iff.1 h
    exact .inl (by simp [strict, item?, hi, hitem])

/-- Writing in a sorted value what is there changes nothing. -/
theorem eq_of_write? {root value written : Value} {key : String}
    (h : write? root.opened key value = some written) (hget : strict.get? root key = some value)
    (hroot : root.IsSorted) : written = root := by
  cases root with
  | null | bool b | number n | string s => cases hget
  | object fields =>
    obtain rfl := Option.some.inj h
    cases hroot with
    | object hnames hfields => rw [hnames.insert_eq_self hget]
  | array items =>
    obtain ⟨i, hi, hlt, rfl⟩ := exists_of_write?_array h
    simp only [strict, item?, hi, Option.map_some, Option.some.injEq,
      List.getElem?_eq_getElem hlt, Option.getD_some] at hget
    rw [← hget, List.set_getElem_self]

/-! ### Along the keys -/

@[simp] theorem reached_nil (root : Value) : reached root [] = root :=
  rfl

theorem reached_cons (root : Value) (key : String) (rest : List String) :
    reached root (key :: rest) = reached (child root key) rest := by
  simp only [reached, child, follow?]
  cases lenient.get? root key with
  | some v => rfl
  | none => cases rest <;> rfl

theorem reached_cons_opened {root other : Value} (h : root.opened = other.opened) (key : String)
    (rest : List String) : reached root (key :: rest) = reached other (key :: rest) := by
  rw [reached_cons, reached_cons, ← child_opened root, h, child_opened]

theorem reached_opened {root other : Value} (h : root.opened = other.opened) (keys : List String) :
    (reached root keys).opened = (reached other keys).opened := by
  cases keys with
  | nil => exact h
  | cons key rest => rw [reached_cons_opened h]

theorem slots_opened {root other : Value} (h : root.opened = other.opened) (keys : List String) :
    slots root keys = slots other keys := by
  cases keys with
  | nil => rfl
  | cons key rest =>
    rw [slots, slots, ← slot?_opened root, ← child_opened root, h, slot?_opened, child_opened]

theorem blocked_opened {root other : Value} (h : root.opened = other.opened)
    (keys : List String) : Blocked root keys ↔ Blocked other keys := by
  have hrefuses (front : List String) (key : String) :
      Refuses (reached root front) key ↔ Refuses (reached other front) key := by
    rw [← refuses_opened, reached_opened h, refuses_opened]
  simp only [Blocked, hrefuses]

theorem not_blocked_nil {root : Value} : ¬ Blocked root [] := by
  rintro ⟨front, key, rest, hkeys, -⟩
  exact List.append_ne_nil_of_right_ne_nil front (List.cons_ne_nil key rest) hkeys.symm

theorem blocked_cons {root : Value} {key : String} {rest : List String} :
    Blocked root (key :: rest) ↔ Refuses root key ∨ Blocked (child root key) rest := by
  constructor
  · rintro ⟨front, last, behind, hkeys, hrefuses⟩
    cases front with
    | nil =>
      obtain ⟨rfl, -⟩ := List.cons.inj hkeys
      exact .inl hrefuses
    | cons first front =>
      obtain ⟨rfl, rfl⟩ := List.cons.inj hkeys
      rw [reached_cons] at hrefuses
      exact .inr ⟨front, last, behind, rfl, hrefuses⟩
  · rintro (hrefuses | ⟨front, last, behind, rfl, hrefuses⟩)
    · exact ⟨[], key, rest, rfl, hrefuses⟩
    · exact ⟨key :: front, last, behind, rfl, by rwa [reached_cons]⟩

/-- Paths that part have first keys that select different slots, or part in what these select. -/
theorem exists_of_parts {root : Value} {keys others : List String} (h : Parts root keys others) :
    ∃ key rest other behind, keys = key :: rest ∧ others = other :: behind ∧
      (slot? root other ≠ slot? root key ∨
        slot? root other = slot? root key ∧ Parts (child root key) rest behind) := by
  obtain ⟨i, slot, other, hslot, hother, hne⟩ := h
  cases keys with
  | nil => cases hslot
  | cons key rest =>
    cases others with
    | nil => cases hother
    | cons first behind =>
      refine ⟨key, rest, first, behind, rfl, rfl, or_iff_not_imp_left.2 fun hfirst => ?_⟩
      rw [not_ne_iff] at hfirst
      refine ⟨hfirst, ?_⟩
      cases i with
      | zero =>
        obtain rfl := Option.some.inj hslot
        obtain rfl := Option.some.inj hother
        exact absurd hfirst.symm hne
      | succ i =>
        rw [slots, child_congr hfirst, List.getElem?_cons_succ] at hother
        exact ⟨i, slot, other, hslot, hother, hne⟩

/-! ### What a write does -/

theorem store_singleton {access : Access} (hset : access.set? = write?) (root : Value)
    (key : String) (value : Value) :
    access.store root [key] value =
      match write? root key value with
      | some written => (true, written)
      | none => (false, root) := by
  cases hwrite : write? root key value with
  | none => simp only [store, hset, hwrite]
  | some written => simp only [store, hset, hwrite]

theorem store_cons (access : Access) {root : Value} (key : String) {rest : List String}
    (hrest : rest ≠ []) (value : Value) :
    access.store root (key :: rest) value =
      match next? root key with
      | some next =>
        ((access.store next rest value).1,
          (write? root.opened key (access.store next rest value).2).getD root)
      | none => (false, root) := by
  cases rest with
  | nil => exact absurd rfl hrest
  | cons second rest =>
    cases root with
    | bool b | number n | string s | null | object fields => rfl
    | array items =>
      rw [store, next?]
      · cases hi : position? key.toList with
        | none => rfl
        | some i =>
          cases hitem : items[i]? with
          | none => simp [hitem]
          | some item =>
            have hlt := (List.getElem?_eq_some_iff.1 hitem).1
            simp [Value.opened, write?, setItem?, hi, hlt]
      · exact nofun

/-- A write with a policy that writes as the policies here do goes along the containers of its
path. -/
theorem stores_store {access : Access} (hset : access.set? = write?) (root : Value)
    (keys : List String) (value : Value) :
    Stores value root keys (access.store root keys value).1 (access.store root keys value).2 := by
  induction keys generalizing root with
  | nil => exact .nowhere root
  | cons key rest ih =>
    by_cases hrest : rest = []
    · subst hrest
      rw [store_singleton hset]
      cases hwrite : write? root key value with
      | some written => exact .last hwrite
      | none =>
        rcases write?_eq_none_iff.1 hwrite with rfl | hrefuses
        · exact .null key
        · exact .refused hrefuses
    · rw [store_cons access key hrest]
      cases hnext : next? root key with
      | none => exact .refused (next?_eq_none_iff.1 hnext)
      | some next =>
        have hwrite : write? root.opened key (access.store next rest value).2 ≠ none := by
          rw [Ne, write?_eq_none_iff, refuses_opened, ← next?_eq_none_iff, hnext]
          cases root <;> simp [Value.opened]
        obtain ⟨written, hwritten⟩ := Option.ne_none_iff_exists'.1 hwrite
        simp only [hwritten, Option.getD_some]
        exact .behind hrest hnext (ih next) hwritten

namespace Stores

variable {value root written : Value} {keys : List String} {done : Bool}

/-- What was written stands at the end of its keys. -/
theorem follow?_eq (h : Stores value root keys done written) (hdone : done = true) :
    lenient.follow? written keys = some value := by
  induction h with
  | nowhere | refused | null => cases hdone
  | last hwrite => simp [follow?, get?_write? hwrite]
  | behind hrest hnext h hwrite ih => simp [follow?, get?_write? hwrite, ih hdone]

/-- Whatever becomes of a write, keys that part from its own lead to what they led to before. -/
theorem reached_eq (h : Stores value root keys done written) {others : List String}
    (hparts : Parts root keys others) : reached written others = reached root others := by
  induction h generalizing others with
  | nowhere | refused | null => rfl
  | last hwrite =>
    obtain ⟨_, _, other, behind, hkeys, rfl, hslot | ⟨-, hbehind⟩⟩ := exists_of_parts hparts
    · obtain ⟨rfl, -⟩ := List.cons.inj hkeys
      rw [reached_cons, reached_cons, child_write? hwrite, if_neg hslot]
    · obtain ⟨rfl, rfl⟩ := List.cons.inj hkeys
      obtain ⟨_, _, _, _, hnil, -⟩ := exists_of_parts hbehind
      cases hnil
  | @behind root next left written key rest done hrest hnext h hwrite ih =>
    obtain ⟨_, _, other, behind, hkeys, rfl, hcase⟩ := exists_of_parts hparts
    obtain ⟨rfl, rfl⟩ := List.cons.inj hkeys
    rw [reached_cons, reached_cons, child_write? hwrite, slot?_opened, slot?_opened, child_opened]
    obtain hslot | ⟨hslot, hbehind⟩ := hcase
    · rw [if_neg hslot]
    · have hopened := opened_of_next? hnext
      have hnextparts : Parts next rest behind := by
        simpa only [Parts, slots_opened hopened] using hbehind
      -- `behind` is not empty, so that an empty object and a missing field are read alike
      obtain ⟨_, _, first, tail, -, rfl, -⟩ := exists_of_parts hbehind
      rw [if_pos hslot, ih hnextparts, reached_cons_opened hopened, child_congr hslot]

theorem isSorted (h : Stores value root keys done written) (hroot : root.IsSorted)
    (hvalue : value.IsSorted) : written.IsSorted := by
  induction h with
  | nowhere | refused | null => exact hroot
  | last hwrite => exact isSorted_of_write? hwrite hroot hvalue
  | behind hrest hnext h hwrite ih =>
    exact isSorted_of_write? hwrite (isSorted_opened hroot) (ih (isSorted_of_next? hnext hroot))

/-- A write fails where it has no key, where something on its way refuses a key, and where null
stands there to hold the last one. -/
theorem eq_false_iff (h : Stores value root keys done written) :
    done = false ↔ keys = [] ∨ Blocked root keys ∨
      keys ≠ [] ∧ strict.follow? root keys.dropLast = some .null := by
  induction h with
  | nowhere root => simp
  | refused hrefuses => simp [blocked_cons, hrefuses]
  | null key => simp [follow?]
  | @last root written key hwrite =>
    have hsome : write? root key value ≠ none := by
      rw [hwrite]
      exact Option.some_ne_none written
    obtain ⟨hnull, hrefuses⟩ := not_or.1 (write?_eq_none_iff.not.1 hsome)
    simp [blocked_cons, not_blocked_nil, follow?, hnull, hrefuses]
  | @behind root next left written key rest done hrest hnext h hwrite ih =>
    have hrefuses : ¬ Refuses root key := by
      rw [← next?_eq_none_iff, hnext]
      exact Option.some_ne_none next
    have hnull : strict.follow? root (key :: rest.dropLast) = some .null ↔
        strict.follow? next rest.dropLast = some .null := by
      rcases strict_get?_of_next? hnext with hget | ⟨hget, rfl⟩
      · rw [follow?, hget, Option.bind_some]
      · -- what the write has made itself is an object, and has no attributes that are there
        rw [follow?, hget]
        cases rest.dropLast <;> simp [follow?, strict]
    rw [ih, blocked_cons, ← blocked_opened (opened_of_next? hnext),
      List.dropLast_cons_of_ne_nil hrest, hnull]
    simp [hrest, hrefuses]

/-- No key is refused in an object that the write has made itself. -/
theorem eq_true_of_empty (h : Stores value (.object []) keys done written) (hkeys : keys ≠ []) :
    done = true := by
  have hblocked (keys : List String) : ¬ Blocked .null keys := by
    induction keys with
    | nil => exact not_blocked_nil
    | cons key rest ih =>
      rw [blocked_cons]
      exact not_or.2 ⟨id, ih⟩
  rw [← Bool.not_eq_false, h.eq_false_iff]
  rintro (hnil | hempty | ⟨-, hnull⟩)
  · exact hkeys hnil
  · have hopened : (Value.object []).opened = Value.null.opened := rfl
    exact hblocked keys ((blocked_opened hopened keys).1 hempty)
  · cases hlast : keys.dropLast <;> simp [hlast, follow?, strict] at hnull

/-- A write that fails in a sorted value leaves it as it was. -/
theorem eq_of_eq_false (h : Stores value root keys done written) (hroot : root.IsSorted)
    (hdone : done = false) : written = root := by
  induction h with
  | nowhere | refused | null => rfl
  | last => cases hdone
  | @behind root next left written key rest done hrest hnext h hwrite ih =>
    rcases strict_get?_of_next? hnext with hget | ⟨-, rfl⟩
    · rw [ih (isSorted_of_next? hnext hroot) hdone] at hwrite
      exact eq_of_write? hwrite hget hroot
    · rw [h.eq_true_of_empty hrest] at hdone
      cases hdone

/-- Null and what is missing become objects on the way to the last container, and objects stay
objects. -/
theorem exists_object (h : Stores value root keys done written) (hdone : done = true)
    {front rest : List String} {key : String} (hkeys : keys = front ++ key :: rest)
    (hrest : rest ≠ []) {fields : Entries Value}
    (hfront : (reached root front).opened = .object fields) :
    ∃ fields, lenient.follow? written front = some (.object fields) := by
  induction h generalizing front with
  | nowhere | refused | null => cases hdone
  | last hwrite =>
    cases front with
    | nil => exact absurd (List.cons.inj hkeys).2.symm hrest
    | cons first front => cases front <;> cases (List.cons.inj hkeys).2
  | behind hbehind hnext h hwrite ih =>
    cases front with
    | nil =>
      rw [reached_nil] at hfront
      rw [hfront] at hwrite
      exact ⟨_, (congrArg some (Option.some.inj hwrite)).symm⟩
    | cons first front =>
      obtain ⟨rfl, htail⟩ := List.cons.inj hkeys
      rw [reached_cons, ← reached_opened (opened_of_next? hnext)] at hfront
      obtain ⟨changed, hchanged⟩ := ih hdone htail hfront
      exact ⟨changed, by rw [follow?, get?_write? hwrite, if_pos rfl, Option.bind_some, hchanged]⟩

end Stores

/-! ### Assignments -/

theorem stores_of_assign {root after value : Value} {path : String} {done : Bool}
    (h : lenient.assign root path value = (done, after)) :
    Stores value root (PropertyPath.keys path) done after := by
  have hstores : Stores value root (PropertyPath.keys path)
      (lenient.assign root path value).1 (lenient.assign root path value).2 :=
    stores_store rfl root (PropertyPath.keys path) value
  rwa [h] at hstores

/-- After an assignment its path leads to the value, and a path that parts from it leads to what it
led to before. -/
theorem assign_lawful {root after value : Value} {path : String}
    (h : lenient.assign root path value = (true, after)) :
    lenient.resolve? after path = some value ∧
      ∀ other, Parts root (PropertyPath.keys path) (PropertyPath.keys other) →
        (lenient.resolve? after other).getD .null = (lenient.resolve? root other).getD .null :=
  ⟨(stores_of_assign h).follow?_eq rfl, fun _ hparts => (stores_of_assign h).reached_eq hparts⟩

/-- The first of two lines is null, and an amount is assigned in it; what is read of this line and
of the other stays. -/
theorem assign_lawful_lines :
    let line : Value := .object [("sku", .string "A")]
    let root : Value := .object [("lines", .array [.null, line])]
    let after : Value := .object [("lines",
      .array [.object [("amount", .object [("net", .ofNat 7)])], line])]
    lenient.assign root "lines[00].amount.net" (.ofNat 7) = (true, after) ∧
      lenient.resolve? after "lines[00].amount.net" = some (.ofNat 7) ∧
      (lenient.resolve? after "lines[0].sku").getD .null =
        (lenient.resolve? root "lines[0].sku").getD .null ∧
      (lenient.resolve? after "lines[1].sku").getD .null =
        (lenient.resolve? root "lines[1].sku").getD .null := by
  intro line root after
  have h : lenient.assign root "lines[00].amount.net" (.ofNat 7) = (true, after) := by cbv
  obtain ⟨hread, hother⟩ := assign_lawful h
  refine ⟨h, hread, hother "lines[0].sku" ?_, hother "lines[1].sku" ?_⟩
  · exact ⟨2, some (.field "amount"), some (.field "sku"), by cbv, by cbv, by decide⟩
  · exact ⟨1, some (.item 0), some (.item 1), by cbv, by cbv, by decide⟩

/-- The assignments that are refused are those without a key, those with a container on their way
that refuses its key, and those that come to null with the last key. Before the last key null and
what is missing become objects. -/
theorem assign_refused_iff (root : Value) (path : String) (value : Value) :
    ((lenient.assign root path value).1 = false ↔
      PropertyPath.keys path = [] ∨ Blocked root (PropertyPath.keys path) ∨
        PropertyPath.keys path ≠ [] ∧
          strict.follow? root (PropertyPath.keys path).dropLast = some .null) ∧
      ∀ after, lenient.assign root path value = (true, after) →
        ∀ front key rest, PropertyPath.keys path = front ++ key :: rest → rest ≠ [] →
          (lenient.follow? root front).getD .null = .null →
            ∃ fields, lenient.follow? after front = some (.object fields) := by
  refine ⟨(stores_of_assign rfl).eq_false_iff, fun after h front key rest hkeys hrest hnull => ?_⟩
  have hfront : (reached root front).opened = .object [] := by
    rw [reached, hnull]
    rfl
  exact (stores_of_assign h).exists_object rfl hkeys hrest hfront

/-- Null becomes an object where two keys more are to come. -/
theorem assign_refused_iff_created :
    let root : Value := .object [("meta", .null)]
    ∃ after, lenient.assign root "meta.key.id" (.ofNat 7) = (true, after) ∧
      ∃ fields, lenient.follow? after ["meta"] = some (.object fields) := by
  intro root
  have h : lenient.assign root "meta.key.id" (.ofNat 7) =
      (true, .object [("meta", .object [("key", .object [("id", .ofNat 7)])])]) := by cbv
  refine ⟨_, h, (assign_refused_iff root "meta.key.id" (.ofNat 7)).2 _ h ["meta"] "key" ["id"] ?_
    (List.cons_ne_nil _ _) rfl⟩
  cbv

/-- Null that is to hold the last key is refused, though nothing on the way refuses a key. -/
theorem null_holds_no_last_key :
    let root : Value := .object [("meta", .null)]
    lenient.assign root "meta.id" (.ofNat 7) = (false, root) ∧
      PropertyPath.keys "meta.id" ≠ [] ∧ ¬ Blocked root (PropertyPath.keys "meta.id") := by
  intro root
  have hkeys : PropertyPath.keys "meta.id" = ["meta", "id"] := by cbv
  refine ⟨by cbv, ?_, ?_⟩
  · rw [hkeys]
    exact List.cons_ne_nil _ _
  · rw [hkeys, blocked_cons, blocked_cons]
    exact not_or.2 ⟨id, not_or.2 ⟨id, not_blocked_nil⟩⟩

/-- An assignment that is refused leaves a sorted value as it was. -/
theorem eq_of_assign_refused {root after value : Value} {path : String} (hroot : root.IsSorted)
    (h : lenient.assign root path value = (false, after)) : after = root :=
  (stores_of_assign h).eq_of_eq_false hroot rfl

/-- A number refuses a key behind a field, a position and another field. -/
theorem eq_of_assign_refused_number :
    let root : Value := .object [("a", .array [.object [("b", .ofNat 1)]]), ("c", .null)]
    root.IsSorted ∧ ∃ after, lenient.assign root "a[0].b.c.d" .null = (false, after) ∧
      after = root := by
  intro root
  have hparse : Json.parse? "\x7b\"a\":[\x7b\"b\":1\x7d],\"c\":null\x7d" = some root := by cbv
  have hroot := Json.isSorted_of_parse? hparse
  have h : lenient.assign root "a[0].b.c.d" .null = (false, root) := by cbv
  exact ⟨hroot, root, h, eq_of_assign_refused hroot h⟩

end Access

end SqlTemplate
