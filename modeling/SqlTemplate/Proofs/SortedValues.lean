import SqlTemplate.Json.Reader
import SqlTemplate.Proofs.VariantMaps

/-!
# Sorted values

An object stands for a map, and as a list of fields it is that map's only writing where the names
ascend. A value in which all objects are of this kind is sorted. What a text writes is sorted, and
so are the attributes of what is sorted; and as in a map, a field that is written with the value
that it has changes nothing.

## Main definitions

* `Value.IsSorted` : the names in every object of a value ascend.

## Main results

* `Entries.Ordered.insert_eq_self` : a map with an entry that it has.
* `Json.isSorted_of_parse?` : the value that a text writes is sorted.
-/

namespace SqlTemplate

/-- The names in every object within a value ascend strictly. -/
inductive Value.IsSorted : Value → Prop
  | null : IsSorted .null
  | bool (b : Bool) : IsSorted (.bool b)
  | number (n : Number) : IsSorted (.number n)
  | string (s : String) : IsSorted (.string s)
  | array {items : List Value} (hitems : ∀ item ∈ items, IsSorted item) : IsSorted (.array items)
  | object {fields : Entries Value} (hnames : fields.Ordered)
      (hfields : ∀ field ∈ fields, IsSorted field.2) : IsSorted (.object fields)

namespace Entries

variable {α : Type} {m : Entries α}

/-- A map is as it was after an entry that it has was written again. -/
theorem Ordered.insert_eq_self (h : m.Ordered) {key : String} {value : α}
    (hfind : m.find? key = some value) : m.insert key value = m := by
  refine (h.insert key value).ext h fun key' => ?_
  rw [find?_insert]
  split
  · subst key'
    exact hfind.symm
  · rfl

theorem ordered_ofList (l : List (String × α)) : (ofList l).Ordered := by
  have hfold : ∀ m : Entries α, m.Ordered →
      (l.foldl (fun m e => m.insert e.1 e.2) m).Ordered := by
    induction l with
    | nil => exact fun m hm => hm
    | cons e l ih => exact fun m hm => ih _ (hm.insert e.1 e.2)
  exact hfold [] List.Pairwise.nil

theorem mem_of_mem_ofList {l : List (String × α)} {e : String × α} (h : e ∈ ofList l) :
    e ∈ l := by
  have hfold : ∀ m : Entries α, e ∈ l.foldl (fun m e => m.insert e.1 e.2) m → e ∈ m ∨ e ∈ l := by
    clear h
    induction l with
    | nil => exact fun m hm => .inl hm
    | cons f l ih =>
      intro m hm
      rcases ih _ hm with hm | hl
      · rcases mem_insert hm with rfl | hm
        · exact .inr List.mem_cons_self
        · exact .inl hm
      · exact .inr (List.mem_cons_of_mem f hl)
  rcases hfold [] h with hnil | hl
  · cases hnil
  · exact hl

end Entries

namespace Value.IsSorted

variable {fields : Entries Value} {items : List Value} {value : Value}

theorem empty : IsSorted (.object []) :=
  .object List.Pairwise.nil nofun

theorem of_fields {fields : List (String × Value)} (h : ∀ field ∈ fields, field.2.IsSorted) :
    (ofFields fields).IsSorted :=
  .object (Entries.ordered_ofList fields) fun field hfield =>
    h field (Entries.mem_of_mem_ofList hfield)

theorem insert (h : IsSorted (.object fields)) (name : String) (hvalue : value.IsSorted) :
    IsSorted (.object (fields.insert name value)) := by
  cases h with
  | object hnames hfields =>
    refine .object (hnames.insert name value) fun field hfield => ?_
    rcases Entries.mem_insert hfield with rfl | hfield
    · exact hvalue
    · exact hfields field hfield

theorem find? (h : IsSorted (.object fields)) {name : String}
    (hfind : fields.find? name = some value) : value.IsSorted := by
  cases h with
  | object hnames hfields => exact hfields _ (Entries.mem_of_find? hfind)

theorem set (h : IsSorted (.array items)) (i : Nat) (hvalue : value.IsSorted) :
    IsSorted (.array (items.set i value)) := by
  cases h with
  | array hitems =>
    refine .array fun item hitem => ?_
    rcases List.mem_or_eq_of_mem_set hitem with hitem | rfl
    · exact hitems item hitem
    · exact hvalue

theorem getElem? (h : IsSorted (.array items)) {i : Nat} (hitem : items[i]? = some value) :
    value.IsSorted := by
  cases h with
  | array hitems => exact hitems value (List.mem_of_getElem? hitem)

end Value.IsSorted

/-! ### Values that texts write -/

namespace Json

variable {α : Type} {item : Reader α} {P : α → Prop} {s rest : List Char}

theorem forall_of_items? (hitem : ∀ s v rest, item s = some (v, rest) → P v) {closing : Char}
    {n : Nat} {vs : List α} (h : items? item closing n s = some (vs, rest)) : ∀ v ∈ vs, P v := by
  induction n generalizing s vs rest with
  | zero => cases h
  | succ n ih =>
    obtain ⟨⟨v, t⟩, hv, h⟩ := Option.bind_eq_some_iff.1 h
    have hfirst := hitem _ _ _ hv
    dsimp only at h
    split at h
    · obtain ⟨⟨ws, u⟩, hws, h⟩ := Option.bind_eq_some_iff.1 h
      obtain ⟨rfl, -⟩ := Prod.mk.inj (Option.some.inj h)
      exact List.forall_mem_cons.2 ⟨hfirst, ih hws⟩
    · split at h
      · obtain ⟨rfl, -⟩ := Prod.mk.inj (Option.some.inj h)
        simpa using hfirst
      · cases h
    · cases h

theorem forall_of_container? (hitem : ∀ s v rest, item s = some (v, rest) → P v) {closing : Char}
    {vs : List α} (h : container? item closing s = some (vs, rest)) : ∀ v ∈ vs, P v := by
  rw [container?] at h
  split at h
  · cases h
  · split at h
    · obtain ⟨rfl, -⟩ := Prod.mk.inj (Option.some.inj h)
      simp
    · exact forall_of_items? hitem h

theorem of_field? {value : Reader Value} {Q : Value → Prop}
    (hvalue : ∀ s v rest, value s = some (v, rest) → Q v) {field : String × Value}
    (h : field? value s = some (field, rest)) : Q field.2 := by
  unfold field? at h
  split at h
  · obtain ⟨⟨name, t⟩, -, h⟩ := Option.bind_eq_some_iff.1 h
    dsimp only at h
    split at h
    · obtain ⟨⟨v, u⟩, hv, h⟩ := Option.bind_eq_some_iff.1 h
      obtain ⟨rfl, -⟩ := Prod.mk.inj (Option.some.inj h)
      exact hvalue _ _ _ hv
    · cases h
  · cases h

theorem isSorted_of_value? {depth : Nat} {v : Value} (h : value? depth s = some (v, rest)) :
    v.IsSorted := by
  induction depth using Nat.strongRecOn generalizing s v rest with
  | ind depth ih =>
    unfold value? at h
    split at h
    · rename_i d t _
      obtain ⟨⟨items, u⟩, hitems, h⟩ := Option.map_eq_some_iff.1 h
      obtain ⟨rfl, -⟩ := Prod.mk.inj h
      exact .array (forall_of_container? (fun _ _ _ => ih d d.lt_succ_self) hitems)
    · rename_i d t _
      obtain ⟨⟨fields, u⟩, hfields, h⟩ := Option.map_eq_some_iff.1 h
      obtain ⟨rfl, -⟩ := Prod.mk.inj h
      have hvalue (s : List Char) (v : Value) (rest : List Char)
          (h : value? d s = some (v, rest)) : v.IsSorted := ih d d.lt_succ_self h
      exact .of_fields (forall_of_container? (fun _ _ _ => of_field? hvalue) hfields)
    · obtain ⟨⟨text, u⟩, -, h⟩ := Option.map_eq_some_iff.1 h
      obtain ⟨rfl, -⟩ := Prod.mk.inj h
      exact .string text
    · split at h
      · obtain ⟨rfl, -⟩ := Prod.mk.inj (Option.some.inj h)
        exact .null
      · obtain ⟨rfl, -⟩ := Prod.mk.inj (Option.some.inj h)
        exact .bool true
      · obtain ⟨rfl, -⟩ := Prod.mk.inj (Option.some.inj h)
        exact .bool false
      · obtain ⟨⟨numeral, u⟩, -, h⟩ := Option.bind_eq_some_iff.1 h
        obtain ⟨n, -, h⟩ := Option.bind_eq_some_iff.1 h
        obtain ⟨rfl, -⟩ := Prod.mk.inj (Option.some.inj h)
        exact .number n

/-- The value that a text writes is sorted. -/
theorem isSorted_of_parse? {text : String} {v : Value} (h : parse? text = some v) :
    v.IsSorted := by
  obtain ⟨⟨w, rest⟩, hw, h⟩ := Option.bind_eq_some_iff.1 h
  dsimp only at h
  split at h
  · obtain rfl := Option.some.inj h
    exact isSorted_of_value? hw
  · cases h

end Json

end SqlTemplate
