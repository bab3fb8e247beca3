/-!
# Entries

Finite maps from strings, as lists of entries in ascending order of their keys. Insertion keeps
the order, and a list that is in order has one entry for each key. The laws of look-up hold for
every list, ordered or not.
-/

namespace SqlTemplate

/-- The entries of a finite map. -/
abbrev Entries (α : Type) := List (String × α)

namespace Entries

variable {α β : Type}

/-- The value under a key. -/
def find? : Entries α → String → Option α
  | [], _ => none
  | (k, v) :: rest, key => if k = key then some v else find? rest key

/-- Whether a key has an entry. -/
def has (m : Entries α) (key : String) : Bool :=
  (find? m key).isSome

/-- The map with a value under a key, in the place of an earlier value. -/
def insert : Entries α → String → α → Entries α
  | [], key, value => [(key, value)]
  | (k, v) :: rest, key, value =>
    if k = key then (key, value) :: rest
    else if key < k then (key, value) :: (k, v) :: rest
    else (k, v) :: insert rest key value

/-- The map without a key. -/
def erase (m : Entries α) (key : String) : Entries α :=
  m.filter (·.1 ≠ key)

/-- The map with a value under a key, or without the key where there is no value. -/
def set (m : Entries α) (key : String) : Option α → Entries α
  | some value => m.insert key value
  | none => m.erase key

/-- The entries of a list, where a later entry replaces an earlier one with its key. -/
def ofList (l : List (String × α)) : Entries α :=
  l.foldl (fun m e => m.insert e.1 e.2) []

/-- The keys in order. -/
def keys (m : Entries α) : List String :=
  m.map (·.1)

/-- The values in the order of their keys. -/
def values (m : Entries α) : List α :=
  m.map (·.2)

/-- The keys ascend strictly. -/
def Ordered (m : Entries α) : Prop :=
  (m.map (·.1)).Pairwise (· < ·)

@[simp] theorem find?_nil (key : String) : find? ([] : Entries α) key = none := rfl

theorem find?_insert (m : Entries α) (key key' : String) (value : α) :
    find? (m.insert key value) key' = if key = key' then some value else find? m key' := by
  fun_induction insert m key value with
  | case1 key value => rfl
  | case2 v rest key value => simp only [find?]; split <;> rfl
  | case3 k v rest key value hne hlt => simp [find?]
  | case4 k v rest key value hne hlt ih =>
    simp only [find?, ih]
    by_cases hk : k = key'
    · simp [hk, show key ≠ key' by rintro rfl; exact hne hk]
    · simp [hk]

@[simp] theorem find?_insert_self (m : Entries α) (key : String) (value : α) :
    find? (m.insert key value) key = some value := by
  simp [find?_insert]

theorem find?_erase (m : Entries α) (key key' : String) :
    find? (m.erase key) key' = if key = key' then none else find? m key' := by
  induction m with
  | nil => simp [erase]
  | cons e rest ih =>
    rw [erase] at ih ⊢
    by_cases he : e.1 = key
    · rw [List.filter_cons_of_neg (by simp [he]), ih, find?]
      split <;> simp_all
    · rw [List.filter_cons_of_pos (by simp [he]), find?, find?, ih]
      split <;> split <;> simp_all

end Entries

end SqlTemplate
