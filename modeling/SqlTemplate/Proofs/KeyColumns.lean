import Mathlib
import SqlTemplate.Proofs.PathFrames

/-!
# Where the columns of keys go

A row of keys is written into a record, each of its columns into a key property. The column for a
key property is the first of the name that is declared for it, in letters of either case, or the one
at its position where no name is declared. Rows of generated keys go into one record after another,
from the first on. A key statement returns a single row, which goes into the parameter; if it has a
single column and there is a single key property, the column is copied whatever its name.

Where the key properties part in a record, none of them is overwritten by another, so that in the
end each has the value of its column.

## Main definitions

* `Row.FirstNamed` : the first column of a row that has a name.
* `Definition.Supplies` : the column of a row that is for a key property.
* `Definition.KeysPart` : the key properties part in a record.
* `Definition.Keyed` : a record after a row was written into it.

## Main results

* `Storing.keyed_of_record` : a row that was written into a record is there.
* `KeyGenerator.generated_keys_in_place` : generated keys are in the records of their rows.
* `KeyGenerator.selected_keys_in_place` : the row of a key statement is in the parameter.
-/

namespace SqlTemplate

open Text

/-- A value is that of the first column of a name, in letters of either case. -/
def Row.FirstNamed (row : Row) (name : String) (value : Value) : Prop :=
  ∃ front column rest, row = front ++ (column, value) :: rest ∧
    sameIgnoringCase column name = true ∧ ∀ c ∈ front, sameIgnoringCase c.1 name = false

namespace Definition

/-- A value is that of the column for the key property at a position: the first one of the name that
is declared for it, or the one at its position where no name is. -/
inductive Supplies (d : Definition) (row : Row) (i : Nat) (value : Value) : Prop
  | named {name : String} (hname : d.keyColumns[i]? = some name)
      (hfirst : Row.FirstNamed row name value)
  | placed {column : String} (hname : d.keyColumns[i]? = none)
      (hcolumn : row[i]? = some (column, value))

/-- The key properties part in a record: of any two of them, the paths select different slots of one
of the containers on their way. -/
def KeysPart (d : Definition) (record : Value) : Prop :=
  d.keyProperties.Pairwise fun p q =>
    Access.Parts record (PropertyPath.keys p) (PropertyPath.keys q)

/-- A record after a row was written into it: each key property has the value of its column, and
what parts from all of them is as it was. -/
structure Keyed (d : Definition) (row : Row) (record changed : Value) : Prop where
  keys : ∀ i property, d.keyProperties[i]? = some property → ∃ value, d.Supplies row i value ∧
    Access.lenient.resolve? changed property = some value
  others : ∀ others,
    (∀ property ∈ d.keyProperties, Access.Parts record (PropertyPath.keys property) others) →
      Access.exact.follow? changed others = Access.exact.follow? record others

theorem Supplies.firstNamed {d : Definition} {row : Row} {i : Nat} {name : String} {value : Value}
    (h : d.Supplies row i value) (hname : d.keyColumns[i]? = some name) :
    Row.FirstNamed row name value := by
  cases h with
  | named hother hfirst => rwa [← Option.some.inj (hother.symm.trans hname)]
  | placed hnone => rw [hnone] at hname; cases hname

end Definition

namespace Storing

variable {access : Access} {d : Definition} {row : Row} {value target after : Value}

theorem firstNamed_of_find? {name : String} {c : String × Value}
    (h : row.find? (fun c => sameIgnoringCase c.1 name) = some c) :
    Row.FirstNamed row name c.2 := by
  obtain ⟨hsame, front, rest, hrow, hfront⟩ := List.find?_eq_some_iff_append.1 h
  exact ⟨front, c.1, rest, hrow, hsame, fun b hb => by simpa using hfront b hb⟩

theorem supplies_of_column? {i : Nat} (h : column? d row i = some value) :
    d.Supplies row i value := by
  rw [column?] at h
  split at h
  · rename_i name hname
    obtain ⟨c, hc, rfl⟩ := Option.map_eq_some_iff.1 h
    exact .named hname (firstNamed_of_find? hc)
  · rename_i hname
    obtain ⟨c, hc, rfl⟩ := Option.map_eq_some_iff.1 h
    exact .placed hname hc

/-! ### One record -/

/-- A row is written into each key property from its column. -/
theorem exists_mem_ofRow (row : Row) {i : Nat} {property : String}
    (h : d.keyProperties[i]? = some property) :
    ∃ w ∈ KeyWrite.ofRow d row, w.property = property ∧
      ∀ value, w.value = .ok value → column? d row i = some value := by
  refine ⟨_, List.mem_map.2 ⟨(property, i), List.mk_mem_zipIdx_iff_getElem?.2 h, rfl⟩, rfl,
    fun value hvalue => ?_⟩
  dsimp only at hvalue
  split at hvalue
  · rename_i supplied hcolumn
    rw [hcolumn, Except.ok.inj hvalue]
  · cases hvalue

/-- A key that is stored is read at the end of its path. -/
theorem resolve?_of_key (hset : access.set? = Access.write?) {property : String}
    (h : key access property value target = (.ok (), after)) :
    Access.lenient.resolve? after property = some value :=
  (stores_of_key hset h).follow?_eq rfl

/-- Where the key properties part in a record, a row that was written into it is there. -/
theorem keyed_of_record (hset : access.set? = Access.write?) (hparts : d.KeysPart target)
    (h : record access d row target = (.ok (), after)) : d.Keyed row target after := by
  rw [← KeyWrite.makeAll_ofRow] at h
  have hwrites : (KeyWrite.ofRow d row).Pairwise (KeyWrite.PartsFrom target) := by
    rw [Definition.KeysPart, ← List.zipIdx_map_fst 0 d.keyProperties, List.pairwise_map] at hparts
    exact List.pairwise_map.2 hparts
  obtain ⟨hread, hframe⟩ :=
    KeyWrite.reads_of_makeAll hset (fun w hw => KeyWrite.item_of_mem_ofRow hw) hwrites h
  refine ⟨fun i property hproperty => ?_, fun others hothers => hframe others fun w hw => ?_⟩
  · obtain ⟨w, hw, rfl, hcolumn⟩ := exists_mem_ofRow row hproperty
    obtain ⟨value, hvalue, hfollow⟩ := hread w hw
    exact ⟨value, supplies_of_column? (hcolumn value hvalue),
      Access.lenient_follow?_of_exact hfollow⟩
  · obtain ⟨⟨property, i⟩, hproperty, rfl⟩ := List.mem_map.1 hw
    exact hothers property (List.mem_of_getElem? (List.mk_mem_zipIdx_iff_getElem?.1 hproperty))

/-! ### Several records -/

/-- Rows are written into the records at their positions, and the records behind them stay. -/
theorem of_records {rows : List Row} {items changed : List Value}
    (h : records access d rows items = (.ok (), changed)) :
    changed.length = items.length ∧ (∀ i, rows.length ≤ i → changed[i]? = items[i]?) ∧
    ∀ (i : Nat) (row : Row) (item : Value), rows[i]? = some row → items[i]? = some item →
      ∃ left, changed[i]? = some left ∧ record access d row item = (.ok (), left) := by
  induction rows generalizing items changed with
  | nil =>
    obtain rfl := (Prod.mk.inj h).2
    exact ⟨rfl, fun i _ => rfl, fun i row item hrow => nomatch hrow⟩
  | cons row rows ih =>
    cases items with
    | nil =>
      obtain rfl := (Prod.mk.inj h).2
      exact ⟨rfl, fun i _ => rfl, fun i row item _ hitem => nomatch hitem⟩
    | cons item items =>
      rw [records] at h
      rcases hrecord : record access d row item with ⟨failure | u, left⟩
      · rw [hrecord] at h
        cases (Prod.mk.inj h).1
      · rw [hrecord] at h
        obtain ⟨hresult, rfl⟩ := Prod.mk.inj h
        obtain ⟨hlength, hbehind, hrows⟩ := ih (Prod.ext hresult rfl)
        refine ⟨congrArg Nat.succ hlength, fun i hi => ?_, fun i other first hother hfirst => ?_⟩
        · cases i with
          | zero => cases hi
          | succ i => exact hbehind i (Nat.le_of_succ_le_succ hi)
        · cases i with
          | zero =>
            obtain rfl := Option.some.inj hother
            obtain rfl := Option.some.inj hfirst
            exact ⟨left, rfl, hrecord⟩
          | succ i => exact hrows i other first hother hfirst

/-- Without key properties nothing is written. -/
theorem records_of_nil (hproperties : d.keyProperties = []) (rows : List Row)
    (items : List Value) : records access d rows items = (.ok (), items) := by
  induction rows generalizing items with
  | nil => rfl
  | cons row rows ih =>
    cases items with
    | nil => rfl
    | cons item items =>
      have hrecord : record access d row item = (.ok (), item) := by
        rw [record, hproperties]
        rfl
      rw [records, hrecord]
      dsimp only
      rw [ih]

/-- Generated keys are refused where there are more rows than records, if anything is to be written
at all, and else go into one record after another. -/
theorem generated_array (access : Access) (d : Definition) (rows : List Row) (items : List Value) :
    generated access d rows (.array items) =
      if d.keyProperties ≠ [] ∧ items.length < rows.length then
        (.error (.keys (.surplus d.id rows.length items.length)), .array items)
      else ((records access d rows items).1, .array (records access d rows items).2) := by
  simp only [generated]
  rcases hproperties : d.keyProperties with _ | ⟨property, properties⟩
  · rw [records_of_nil hproperties]
    exact (if_neg fun h => h.1 rfl).symm
  · cases rows with
    | nil => exact (if_neg fun h => Nat.not_lt_zero _ h.2).symm
    | cons row rows =>
      dsimp only
      split
      · rw [if_pos ⟨List.cons_ne_nil _ _, ‹_›⟩]
      · rw [if_neg fun h => absurd h.2 ‹_›]

/-! ### The row of a key statement -/

theorem selected_of_two (h : 1 < d.keyProperties.length) :
    selected access d [row] = record access d row := by
  rw [selected, single]
  rcases hproperties : d.keyProperties with _ | ⟨property, _ | ⟨second, properties⟩⟩
  · simp [hproperties] at h
  · simp [hproperties] at h
  · rfl

theorem selected_of_only {property : String} (h : d.keyProperties = [property])
    (honly : only? property row = some value) :
    selected access d [row] = key access property value := by
  rw [selected, single]
  simp only [h, honly]

theorem selected_of_none {property : String} (h : d.keyProperties = [property])
    (hnone : only? property row = none) :
    selected access d [row] = throw (.keys (.noColumn d.id property)) := by
  rw [selected, single]
  simp only [h, hnone]

theorem only?_of_lookup {property : String} (h : row.lookup property = some value) :
    only? property row = some value := by
  unfold only?
  rw [h]

theorem only?_singleton (property column : String) (value : Value) :
    only? property [(column, value)] = some value := by
  simp only [only?, List.lookup]
  cases property == column <;> rfl

theorem only?_eq_none {property : String} (h : row.lookup property = none)
    (hlength : row.length ≠ 1) : only? property row = none := by
  unfold only?
  rw [h]
  split
  · contradiction
  · exact absurd rfl hlength
  · rfl

end Storing

namespace KeyGenerator

variable {executor : KeyExecutor} {engine : Engine} {statement d key : Definition} {before : Bool}
  {bound : BoundSql} {rows : List Row} {row : Row} {records : List Value} {parameter : Value}

/-- The turn after a statement stores the keys that it generated. -/
theorem take_generated (hrows : executor (.generated d) = .ok rows) :
    generated.take executor engine d false parameter =
      ⟨some (.generated d), (Storing.generated engine.access d rows parameter).1,
        (Storing.generated engine.access d rows parameter).2⟩ := by
  simp only [take, request?, Bool.false_eq_true, if_false, hrows, store]
  rfl

/-- The turn at which a key statement runs stores the rows that it returns. -/
theorem take_selected (hproperties : key.keyProperties ≠ [])
    (hbound : key.bind engine parameter key.dialect = .ok bound)
    (hrows : executor (.query key bound) = .ok rows) :
    (selected key before).take executor engine statement before parameter =
      ⟨some (.query key bound), (Storing.selected engine.access key rows parameter).1,
        (Storing.selected engine.access key rows parameter).2⟩ := by
  have hrequest : (selected key before).request? engine statement before parameter =
      .ok (some (.query key bound)) := by
    rw [request?_selected hproperties, hbound]
    rfl
  simp only [take, hrequest, hrows, store]
  rfl

/-- Generated keys go into the records of their rows: where the key properties part in a record,
each has the value of its column in the end, and all else is as it was, as are the records behind
those of the rows. More rows than records are refused with nothing written. -/
theorem generated_keys_in_place (hset : engine.access.set? = Access.write?)
    (hrows : executor (.generated d) = .ok rows)
    (hparts : ∀ record ∈ records.take rows.length, d.KeysPart record) :
    let turn := generated.take executor engine d false (.array records)
    (turn.result = .ok () → ∃ after, turn.parameter = .array after ∧
      after.length = records.length ∧
      (∀ (i : Nat) (row : Row) (record : Value), rows[i]? = some row → records[i]? = some record →
        ∃ changed, after[i]? = some changed ∧ d.Keyed row record changed) ∧
      ∀ i, rows.length ≤ i → after[i]? = records[i]?) ∧
    (d.keyProperties ≠ [] → records.length < rows.length →
      turn.result = .error (.keys (.surplus d.id rows.length records.length)) ∧
        turn.parameter = .array records) := by
  rw [take_generated hrows, Storing.generated_array]
  refine ⟨fun hresult => ?_, fun hproperties hlength => ?_⟩
  · split at hresult
    · cases hresult
    · rename_i hfits
      rw [if_neg hfits]
      obtain ⟨hlength, hbehind, hchanged⟩ := Storing.of_records (Prod.ext hresult rfl)
      refine ⟨_, rfl, hlength, fun i row record hrow hrecord => ?_, hbehind⟩
      obtain ⟨changed, hitem, hwritten⟩ := hchanged i row record hrow hrecord
      have hmem : record ∈ records.take rows.length :=
        List.mem_of_getElem? ((List.getElem?_take_of_lt
          (List.getElem?_eq_some_iff.1 hrow).1).trans hrecord)
      exact ⟨changed, hitem, Storing.keyed_of_record hset (hparts record hmem) hwritten⟩
  · rw [if_pos ⟨hproperties, hlength⟩]
    exact ⟨rfl, rfl⟩

/-! ### An insertion of two lines, with a third behind them -/

namespace Lines

/-- The first key has a column that is declared for it, the second has that at its position. -/
def insertion : Definition where
  id := "n.add"
  command := .insert
  source := .fixed "INSERT" "INSERT" []
  keyProperties := ["id", "meta.code"]
  keyColumns := ["LINE_ID"]

def added : List Row :=
  [[("line_id", .ofNat 1), ("code", .ofNat 7)], [("line_id", .ofNat 2), ("code", .ofNat 8)]]

def lines : List Value :=
  [.object [("name", .string "a")],
    .object [("id", .null), ("meta", .object [("kind", .string "x")])],
    .object [("name", .string "c")]]

/-- What becomes of the turn after the insertion. -/
def turn : Turn :=
  generated.take (fun _ => .ok added) {} insertion false (.array lines)

theorem keysPart : ∀ record ∈ lines.take added.length, insertion.KeysPart record := by
  intro record hrecord
  have hobject : ∃ fields, record = .object fields := by
    simp only [lines, added, List.length_cons, List.length_nil, List.take_succ_cons, List.take_zero,
      List.mem_cons, List.not_mem_nil, or_false] at hrecord
    obtain rfl | rfl := hrecord <;> exact ⟨_, rfl⟩
  obtain ⟨fields, rfl⟩ := hobject
  exact List.pairwise_pair.2
    ⟨0, some (.field "id"), some (.field "meta"), by cbv, by cbv, by decide⟩

end Lines

/-- The second line has the second keys, and the third line is as it was. -/
theorem generated_keys_in_place_lines :
    Lines.turn.result = .ok () ∧ ∃ after changed, Lines.turn.parameter = .array after ∧
      after.length = 3 ∧ after[2]? = some (.object [("name", .string "c")]) ∧
      after[1]? = some changed ∧
      (∃ value, Lines.insertion.Supplies [("line_id", .ofNat 2), ("code", .ofNat 8)] 1 value ∧
        Access.lenient.resolve? changed "meta.code" = some value) ∧
      Access.exact.follow? changed ["meta", "kind"] = some (.string "x") := by
  have hresult : Lines.turn.result = .ok () := by cbv
  obtain ⟨after, hparameter, hlength, hchanged, hbehind⟩ :=
    (generated_keys_in_place rfl rfl Lines.keysPart).1 hresult
  obtain ⟨changed, hitem, hkeyed⟩ := hchanged 1 _ _ rfl rfl
  refine ⟨hresult, after, changed, hparameter, hlength, hbehind 2 (Nat.le_refl 2), hitem,
    hkeyed.keys 1 "meta.code" rfl, (hkeyed.others ["meta", "kind"] ?_).trans (by cbv)⟩
  intro property hproperty
  simp only [Lines.insertion, List.mem_cons, List.not_mem_nil, or_false] at hproperty
  obtain rfl | rfl := hproperty
  · exact ⟨0, some (.field "id"), some (.field "meta"), by cbv, by cbv, by decide⟩
  · exact ⟨1, some (.field "code"), some (.field "kind"), by cbv, by cbv, by decide⟩

/-- The row of a key statement goes into the parameter. With several key properties, each gets the
first column of the name that is declared for it, and a missing one is an error. With a single key
property, a single column is copied whatever its name; of several columns, the one that has both
the declared name and that of the property is copied, and one of either name has to be there. -/
theorem selected_keys_in_place (hset : engine.access.set? = Access.write?)
    (hbound : key.bind engine parameter key.dialect = .ok bound)
    (hrow : executor (.query key bound) = .ok [row]) (hparts : key.KeysPart parameter) :
    let turn := (selected key before).take executor engine statement before parameter
    (1 < key.keyProperties.length → ∀ (i : Nat) (property name : String),
      key.keyProperties[i]? = some property → key.keyColumns[i]? = some name →
        (turn.result = .ok () → ∃ value, Row.FirstNamed row name value ∧
          Access.lenient.resolve? turn.parameter property = some value) ∧
        ((¬ ∃ value, Row.FirstNamed row name value) →
          ∃ failure, turn.result = .error failure)) ∧
    ∀ property name, key.keyProperties = [property] → key.keyColumns[0]? = some name →
      (∀ column value, row = [(column, value)] →
        (turn.result = .ok () ↔ (engine.access.assign parameter property value).1 = true) ∧
        (turn.result = .ok () → Access.lenient.resolve? turn.parameter property = some value)) ∧
      (∀ value, Row.FirstNamed row name value → row.lookup property = some value →
        turn.result = .ok () → Access.lenient.resolve? turn.parameter property = some value) ∧
      ((¬ ∃ value, Row.FirstNamed row name value) → row.lookup property = none →
        row.length ≠ 1 → ∃ failure, turn.result = .error failure) := by
  refine ⟨fun hseveral i property name hproperty hname => ?_,
    fun property name hproperty hname => ?_⟩
  · have hproperties : key.keyProperties ≠ [] := List.ne_nil_of_length_pos (by omega)
    rw [take_selected hproperties hbound hrow, Storing.selected_of_two hseveral]
    have hkeyed (hresult : (Storing.record engine.access key row parameter).1 = .ok ()) :
        ∃ value, Row.FirstNamed row name value ∧
          Access.lenient.resolve? (Storing.record engine.access key row parameter).2 property =
            some value := by
      obtain ⟨value, hvalue, hread⟩ :=
        (Storing.keyed_of_record hset hparts (Prod.ext hresult rfl)).keys i property hproperty
      exact ⟨value, hvalue.firstNamed hname, hread⟩
    refine ⟨hkeyed, fun hmissing => ?_⟩
    cases hresult : (Storing.record engine.access key row parameter).1 with
    | error failure => exact ⟨failure, rfl⟩
    | ok u =>
      obtain ⟨value, hvalue, -⟩ := hkeyed hresult
      exact absurd ⟨value, hvalue⟩ hmissing
  · have hproperties : key.keyProperties ≠ [] := hproperty ▸ List.cons_ne_nil property []
    rw [take_selected hproperties hbound hrow]
    refine ⟨fun column value hcolumn => ?_, fun value _ hlookup => ?_, fun _ hlookup hlength => ?_⟩
    · rw [Storing.selected_of_only hproperty
        (hcolumn ▸ Storing.only?_singleton property column value)]
      refine ⟨?_, fun hresult => Storing.resolve?_of_key hset (Prod.ext hresult rfl)⟩
      cases hassign : (engine.access.assign parameter property value).1 <;>
        simp [Storing.key, hassign]
    · rw [Storing.selected_of_only hproperty (Storing.only?_of_lookup hlookup)]
      exact fun hresult => Storing.resolve?_of_key hset (Prod.ext hresult rfl)
    · rw [Storing.selected_of_none hproperty (Storing.only?_eq_none hlookup hlength)]
      exact ⟨_, rfl⟩

/-! ### A sequence asked for keys -/

namespace Sequence

/-- Asks a sequence for values. -/
def query (keyProperties keyColumns : List String) : Definition where
  id := "n.add!selectKey"
  command := .select
  source := .fixed "SELECT" "SELECT" []
  keyProperties
  keyColumns

/-- What becomes of the turn before the insertion, where the parameter has no fields. -/
def turn (keyProperties keyColumns : List String) (row : Row) : Turn :=
  (selected (query keyProperties keyColumns) true).take (fun _ => .ok [row]) {} Lines.insertion true
    (.object [])

/-- Two columns, in another order than the key properties. -/
def answer : Row :=
  [("code", .ofNat 7), ("NEW_ID", .ofNat 41)]

theorem keysPart : (query ["id", "meta.code"] ["new_id", "Code"]).KeysPart (.object []) :=
  List.pairwise_pair.2 ⟨0, some (.field "id"), some (.field "meta"), by cbv, by cbv, by decide⟩

end Sequence

/-- Two key properties have the values of the columns that are declared for them, and a single one
has that of the only column. -/
theorem selected_keys_in_place_sequence :
    ((Sequence.turn ["id", "meta.code"] ["new_id", "Code"] Sequence.answer).result = .ok () ∧
      ∃ value, Row.FirstNamed Sequence.answer "new_id" value ∧ Access.lenient.resolve?
        (Sequence.turn ["id", "meta.code"] ["new_id", "Code"] Sequence.answer).parameter "id" =
          some value) ∧
    Access.lenient.resolve?
      (Sequence.turn ["id"] ["new_id"] [("nextval", .ofNat 41)]).parameter "id" =
        some (.ofNat 41) := by
  have hresult : (Sequence.turn ["id", "meta.code"] ["new_id", "Code"] Sequence.answer).result =
      .ok () := by cbv
  have honly : (Sequence.turn ["id"] ["new_id"] [("nextval", .ofNat 41)]).result = .ok () := by cbv
  have hparts : (Sequence.query ["id"] ["new_id"]).KeysPart (.object []) :=
    List.pairwise_singleton _ _
  refine ⟨⟨hresult, ?_⟩, ?_⟩
  · exact ((selected_keys_in_place rfl rfl rfl Sequence.keysPart).1 (Nat.lt_succ_self 1) 0
      "id" "new_id" rfl rfl).1 hresult
  · exact (((selected_keys_in_place rfl rfl rfl hparts).2 "id" "new_id" rfl rfl).1
      "nextval" (.ofNat 41) rfl).2 honly

/-- A declared key column is missing, and the only column is copied in its place. -/
theorem selected_key_of_any_name :
    (¬ ∃ value, Row.FirstNamed [("nextval", .ofNat 41)] "new_id" value) ∧
      (Sequence.turn ["id"] ["new_id"] [("nextval", .ofNat 41)]).result = .ok () ∧
      (Sequence.turn ["id"] ["new_id"] [("nextval", .ofNat 41)]).parameter =
        .object [("id", .ofNat 41)] := by
  refine ⟨?_, by cbv, by cbv⟩
  rintro ⟨value, front, column, rest, hrow, hsame, -⟩
  have hcolumn : (column, value) ∈ [("nextval", Value.ofNat 41)] := hrow ▸ by simp
  rw [(Prod.mk.inj (List.mem_singleton.1 hcolumn)).1] at hsame
  exact absurd hsame (by decide)

end KeyGenerator

end SqlTemplate
