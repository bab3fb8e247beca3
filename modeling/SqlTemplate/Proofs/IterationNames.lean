import SqlTemplate.Proofs.Roots
import SqlTemplate.Proofs.WrittenText
import SqlTemplate.Text.Letter

/-!
# Names of iterations

The name of a loop variable in one iteration tells the variable and the iteration, and no plain
name is such a name. A placeholder whose property begins with a plain name of the loop is pointed
at the iteration; one that is pointed at an iteration already is left alone by every loop.

## Main definitions

* `PlainName` : a name of letters, digits and underscores, without the prefix of iterations.
* `Loop.Plain` : the names of a loop are plain, and there are two of them where both are given.

## Main results

* `iterationName_inj` : the name of an iteration determines the variable and the number.
* `Loop.renameChars_of_mem` : placeholders pointed at an iteration.
* `Loop.renameChars_of_ne` : placeholders that a loop leaves alone.
* `Loop.renameChars_iterationName` : placeholders that are pointed at an iteration already.
-/

namespace SqlTemplate

open Text

/-! ### Plain characters -/

/-- The characters of plain names. -/
def isPlain (c : Char) : Bool :=
  isAlphanumeric c || c == '_'

theorem inRanges_eq_false {table : List (Nat × Nat)} {a b n : Nat}
    (h : table.all (fun range => range.2 < a || b < range.1) = true) (ha : a ≤ n) (hb : n ≤ b) :
    inRanges table n = false := by
  rw [inRanges, List.any_eq_false]
  intro range hrange
  have hapart := List.all_eq_true.1 h range hrange
  simp only [Bool.or_eq_true, Bool.and_eq_true, decide_eq_true_eq] at hapart ⊢
  omega

/-- No character in a gap of the tables of letters and digits is plain. -/
theorem isPlain_of_gap {c : Char} {a b : Nat} (h : 128 ≤ a ∧
      (alphabeticRanges ++ numericRanges).all (fun range => range.2 < a || b < range.1) = true)
    (ha : a ≤ c.toNat) (hb : c.toNat ≤ b) : isPlain c = false := by
  obtain ⟨hlatin, htables⟩ := h
  rw [List.all_append, Bool.and_eq_true] at htables
  have hbeyond (d : Char) (hd : d.val.toNat < 128) : ¬ c.val ≤ d.val := by
    have hval : 128 ≤ c.val.toNat := Nat.le_trans hlatin ha
    rw [UInt32.le_iff_toNat_le]
    omega
  have halpha : c.isAlpha = false := by
    rw [Bool.eq_false_iff]
    intro h
    rcases Bool.or_eq_true_iff.1 h with hupper | hlower
    · exact hbeyond 'Z' (by decide) (of_decide_eq_true hupper).2
    · exact hbeyond 'z' (by decide) (of_decide_eq_true (Bool.and_eq_true_iff.1 hlower).2)
  have hdigit : c.isDigit = false := by
    rw [Bool.eq_false_iff]
    intro h
    exact hbeyond '9' (by decide) (of_decide_eq_true (Bool.and_eq_true_iff.1 h).2)
  have hunderscore : c ≠ '_' := by
    rintro rfl
    exact hbeyond '_' (by decide) (Nat.le_refl _)
  simp [isPlain, isAlphanumeric, isAlphabetic, isNumeric, halpha, hdigit, hunderscore,
    inRanges_eq_false htables.1 ha hb, inRanges_eq_false htables.2 ha hb]

theorem isPlain_of_isBlank {c : Char} (h : isBlank c = true) : isPlain c = false := by
  have hascii : ∀ n < 33, (9 ≤ n ∧ n ≤ 13 ∨ n = 32) → isPlain (Char.ofNat n) = false := by
    decide +kernel
  simp only [isBlank, Bool.or_eq_true, Bool.and_eq_true, decide_eq_true_eq, beq_iff_eq] at h
  obtain hlow | ⟨ha, hb⟩ | hogham | ⟨ha, hb⟩ | hwide :
      (9 ≤ c.toNat ∧ c.toNat ≤ 13 ∨ c.toNat = 32) ∨ (0x80 ≤ c.toNat ∧ c.toNat ≤ 0xA0) ∨
        c.toNat = 0x1680 ∨ (0x2000 ≤ c.toNat ∧ c.toNat ≤ 0x205F) ∨ c.toNat = 0x3000 := by
    omega
  · rw [← Char.ofNat_toNat c]
    exact hascii _ (by omega) hlow
  · exact isPlain_of_gap (by decide +kernel) ha hb
  · exact isPlain_of_gap (by decide +kernel) hogham.ge hogham.le
  · exact isPlain_of_gap (by decide +kernel) ha hb
  · exact isPlain_of_gap (by decide +kernel) hwide.ge hwide.le

/-- What ends the root of a property is no character of a plain name. -/
theorem endsRoot_of_isPlain {c : Char} (h : isPlain c = true) : endsRoot [c] = false := by
  rw [Bool.eq_false_iff]
  intro hends
  have hplain : isPlain c = false := by
    simp only [endsRoot, Bool.or_eq_true, beq_iff_eq] at hends
    rcases hends with (((rfl | rfl) | rfl) | rfl) | hblank
    · decide +kernel
    · decide +kernel
    · decide +kernel
    · decide +kernel
    · exact isPlain_of_isBlank hblank
  rw [hplain] at h
  cases h

/-! ### Plain names and names of iterations -/

/-- A name of letters, digits and underscores that does not begin as the names of iterations do. -/
structure PlainName (name : String) : Prop where
  nonempty : name.toList ≠ []
  plain : ∀ c ∈ name.toList, isPlain c = true
  unprefixed : ¬ "__frch_".toList <+: name.toList

instance (name : String) : Decidable (PlainName name) :=
  decidable_of_iff (name.toList ≠ [] ∧ name.toList.all isPlain = true ∧
      ¬ "__frch_".toList <+: name.toList)
    ⟨fun h => ⟨h.1, List.all_eq_true.1 h.2.1, h.2.2⟩,
      fun h => ⟨h.nonempty, List.all_eq_true.2 h.plain, h.unprefixed⟩⟩

theorem PlainName.isRoot {name : String} (h : PlainName name) : IsRoot name.toList :=
  ⟨h.nonempty, fun c hc => endsRoot_of_isPlain (h.plain c hc)⟩

theorem toList_iterationName (x : String) (n : Nat) :
    (iterationName x n).toList = "__frch_".toList ++ (x.toList ++ '_' :: Nat.toDigits 10 n) := by
  rw [iterationName, String.toList_append, String.toList_append, String.toList_append,
    List.append_assoc, List.append_assoc]
  rw [show (toString n).toList = Nat.toDigits 10 n from Nat.toList_repr]
  rfl

/-- The name of an iteration determines the variable and the number. -/
theorem iterationName_inj {x y : String} {n m : Nat}
    (h : iterationName x n = iterationName y m) : x = y ∧ n = m := by
  have hlists := congrArg String.toList h
  rw [toList_iterationName, toList_iterationName] at hlists
  have hdigits (k : Nat) : '_' ∉ Nat.toDigits 10 k := Nat.underscore_not_in_toDigits
  have hsplit : x.toList = y.toList ∧ Nat.toDigits 10 n = Nat.toDigits 10 m := by
    rcases List.append_eq_append_iff.1 (List.append_cancel_left hlists) with
      ⟨u, hu, hv⟩ | ⟨u, hu, hv⟩
    · cases u with
      | nil => exact ⟨by rw [hu, List.append_nil], (List.cons.inj hv).2⟩
      | cons c u =>
        have hmem : '_' ∈ Nat.toDigits 10 n := by
          rw [(List.cons.inj hv).2]
          exact List.mem_append_right _ (List.mem_cons_self ..)
        exact absurd hmem (hdigits n)
    · cases u with
      | nil => exact ⟨by rw [hu, List.append_nil], (List.cons.inj hv).2.symm⟩
      | cons c u =>
        have hmem : '_' ∈ Nat.toDigits 10 m := by
          rw [(List.cons.inj hv).2]
          exact List.mem_append_right _ (List.mem_cons_self ..)
        exact absurd hmem (hdigits m)
  refine ⟨String.toList_inj.1 hsplit.1, ?_⟩
  rw [← @Nat.ofDigitChars_ten_toDigits n, hsplit.2, Nat.ofDigitChars_ten_toDigits]

theorem PlainName.ne_iterationName {x : String} (hx : PlainName x) (y : String) (n : Nat) :
    x ≠ iterationName y n := by
  rintro rfl
  refine hx.unprefixed ?_
  rw [toList_iterationName]
  exact List.prefix_append _ _

/-- The name of an iteration is a root where the name of the variable is plain. -/
theorem isRoot_iterationName {x : String} (hx : PlainName x) (n : Nat) :
    IsRoot (iterationName x n).toList := by
  refine ⟨?_, fun c hc => endsRoot_of_isPlain ?_⟩
  · rw [toList_iterationName]
    exact List.append_ne_nil_of_left_ne_nil (by decide) _
  · rw [toList_iterationName, List.mem_append, List.mem_append, List.mem_cons] at hc
    rcases hc with hc | hc | rfl | hc
    · have hprefix : "__frch_".toList.all isPlain = true := by
        decide +kernel
      exact List.all_eq_true.1 hprefix c hc
    · exact hx.plain c hc
    · decide +kernel
    · have hdigit : c.isDigit = true := Nat.isDigit_of_mem_toDigits (by decide) (by decide) hc
      have halnum : isAlphanumeric c = true :=
        isAlphanumeric_of_isAlphanum (by rw [Char.isAlphanum, hdigit, Bool.or_true])
      rw [isPlain, halnum, Bool.true_or]

/-! ### Placeholders pointed at an iteration -/

variable {x y : String} {w rest : List Char}

/-- The property that begins with a plain name is pointed at the iteration. -/
theorem renamed?_self (hx : PlainName x) (hrest : endsRoot rest = true) (n : Nat) :
    renamed? x n (.ofList (x.toList ++ rest)) = some (iterationName x n ++ .ofList rest) := by
  rw [renamed?, String.toList_ofList, hx.isRoot.trimStart_append, after?_eq_some_iff.2 rfl]
  exact if_pos hrest

/-- The property that begins with another root is left as it is. -/
theorem renamed?_of_ne (hy : PlainName y) (hw : IsRoot w) (hrest : endsRoot rest = true)
    (hyw : y.toList ≠ w) (n : Nat) : renamed? y n (.ofList (w ++ rest)) = none := by
  rw [renamed?, String.toList_ofList, hw.trimStart_append]
  split
  · rename_i tail htail
    refine if_neg fun hend => hyw ?_
    exact (hy.isRoot.append_inj hw hend hrest (after?_eq_some_iff.1 htail).symm).1
  · rfl

namespace Loop

variable {loop : Loop}

/-- The names of a loop are plain, and its item is not its index. -/
structure Plain (loop : Loop) : Prop where
  names : ∀ x ∈ loop.names, PlainName x
  apart : ∀ x, loop.item = some x → loop.index ≠ some x

instance (loop : Loop) : Decidable loop.Plain :=
  decidable_of_iff ((∀ x ∈ loop.names, PlainName x) ∧ ∀ x ∈ loop.item, loop.index ≠ some x)
    ⟨fun h => ⟨h.1, h.2⟩, fun h => ⟨h.1, h.2⟩⟩

theorem Plain.item (h : loop.Plain) (hx : loop.item = some x) : PlainName x :=
  h.names x (by simp [Loop.names, hx])

theorem Plain.index (h : loop.Plain) (hx : loop.index = some x) : PlainName x :=
  h.names x (by simp [Loop.names, hx])

theorem renameChars_item (h : loop.Plain) (hx : loop.item = some x) (hrest : endsRoot rest = true)
    (n : Nat) : loop.renameChars n (x.toList ++ rest) = (iterationName x n).toList ++ rest := by
  rw [renameChars, renameBody, hx, Option.bind_some, renamed?_self (h.item hx) hrest]
  exact (String.toList_append ..).trans (by rw [String.toList_ofList])

theorem renameChars_index (h : loop.Plain) (hx : loop.index = some x)
    (hrest : endsRoot rest = true) (n : Nat) :
    loop.renameChars n (x.toList ++ rest) = (iterationName x n).toList ++ rest := by
  have hplain := h.index hx
  have hitem : loop.item.bind (renamed? · n (.ofList (x.toList ++ rest))) = none := by
    cases hy : loop.item with
    | none => rfl
    | some y =>
      refine renamed?_of_ne (h.item hy) hplain.isRoot hrest (fun hyx => ?_) n
      exact h.apart y hy (by rw [hx, String.toList_inj.1 hyx])
  rw [renameChars, renameBody, hitem, hx, Option.bind_some, renamed?_self hplain hrest]
  exact (String.toList_append ..).trans (by rw [String.toList_ofList])

/-- A placeholder that begins with a variable of the loop is pointed at the iteration. -/
theorem renameChars_of_mem (h : loop.Plain) (hx : x ∈ loop.names) (hrest : endsRoot rest = true)
    (n : Nat) : loop.renameChars n (x.toList ++ rest) = (iterationName x n).toList ++ rest := by
  rw [names, List.mem_append, Option.mem_toList, Option.mem_toList] at hx
  rcases hx with hindex | hitem
  · exact renameChars_index h hindex hrest n
  · exact renameChars_item h hitem hrest n

/-- A placeholder whose root is no name of a loop is left alone by it. -/
theorem renameChars_of_ne (h : loop.Plain) (hw : IsRoot w) (hne : ∀ y ∈ loop.names, y.toList ≠ w)
    (hrest : endsRoot rest = true) (m : Nat) : loop.renameChars m (w ++ rest) = w ++ rest := by
  have hnone (y? : Option String) (hy? : ∀ y, y? = some y → y ∈ loop.names) :
      y?.bind (renamed? · m (.ofList (w ++ rest))) = none := by
    cases y? with
    | none => rfl
    | some y => exact renamed?_of_ne (h.names y (hy? y rfl)) hw hrest (hne y (hy? y rfl)) m
  rw [renameChars, renameBody, hnone loop.item fun y hy => by simp [Loop.names, hy],
    hnone loop.index fun y hy => by simp [Loop.names, hy]]
  exact String.toList_ofList

/-- A placeholder that is pointed at an iteration is left alone by each loop around it. -/
theorem renameChars_iterationName (h : loop.Plain) (hx : PlainName x)
    (hrest : endsRoot rest = true) (n m : Nat) :
    loop.renameChars m ((iterationName x n).toList ++ rest) =
      (iterationName x n).toList ++ rest :=
  renameChars_of_ne h (isRoot_iterationName hx n)
    (fun y hy hyx => (h.names y hy).ne_iterationName x n (String.toList_inj.1 hyx)) hrest m

end Loop

end SqlTemplate
