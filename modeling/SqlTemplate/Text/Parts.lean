import SqlTemplate.Text.Blank

/-!
# Parts of a text

Cutting a text at a given head, at the first occurrence of a mark, or at every occurrence of a
separator, and the size of a text in bytes. Each cut gives back what stands before it and what
stands after it, so that the two can be put together again.
-/

namespace SqlTemplate.Text

/-- The number of bytes of a text in UTF-8. -/
def byteLength : List Char → Nat
  | [] => 0
  | c :: s => c.utf8Size + byteLength s

@[simp] theorem byteLength_append (s t : List Char) :
    byteLength (s ++ t) = byteLength s + byteLength t := by
  induction s with
  | nil => simp [byteLength]
  | cons c s ih => simp [byteLength, ih, Nat.add_assoc]

/-- A text cut at a byte offset, if that lies within the text and not within a character. -/
def cutAtByte? (n : Nat) : List Char → Option (List Char × List Char)
  | [] => if n = 0 then some ([], []) else none
  | c :: s =>
    if n = 0 then some ([], c :: s)
    else if c.utf8Size ≤ n then
      (cutAtByte? (n - c.utf8Size) s).map fun cut => (c :: cut.1, cut.2)
    else none

theorem cutAtByte?_append (s t : List Char) :
    cutAtByte? (byteLength s) (s ++ t) = some (s, t) := by
  induction s with
  | nil => cases t <;> rfl
  | cons c s ih =>
    have hpos : c.utf8Size + byteLength s ≠ 0 := by
      have := c.utf8Size_pos
      omega
    rw [List.cons_append, cutAtByte?, byteLength, if_neg hpos, if_pos (Nat.le_add_right ..),
      Nat.add_sub_cancel_left, ih]
    rfl

theorem eq_of_cutAtByte? {n : Nat} {s t u : List Char} (h : cutAtByte? n s = some (t, u)) :
    s = t ++ u ∧ byteLength t = n := by
  fun_induction cutAtByte? n s generalizing t u with
  | case1 => obtain ⟨rfl, rfl⟩ := Prod.mk.inj (Option.some.inj h); exact ⟨rfl, rfl⟩
  | case2 => cases h
  | case3 c s => obtain ⟨rfl, rfl⟩ := Prod.mk.inj (Option.some.inj h); exact ⟨rfl, rfl⟩
  | case4 n c s hn hle ih =>
    obtain ⟨cut, hcut, he⟩ := Option.map_eq_some_iff.1 h
    obtain ⟨rfl, rfl⟩ := Prod.mk.inj he
    obtain ⟨rfl, hlength⟩ := ih hcut
    refine ⟨rfl, ?_⟩
    rw [byteLength, hlength]
    omega
  | case5 => cases h

/-- What follows `head` in a text that begins with it. -/
def after? : (head s : List Char) → Option (List Char)
  | [], s => some s
  | _ :: _, [] => none
  | h :: head, c :: s => if h = c then after? head s else none

theorem after?_eq_some_iff {head s rest : List Char} :
    after? head s = some rest ↔ s = head ++ rest := by
  fun_induction after? head s with
  | case1 s => simp [eq_comm]
  | case2 => simp
  | case3 h head s ih => simp [ih]
  | case4 h head c s hne => simp [Ne.symm hne]

theorem length_of_after? {head s rest : List Char} (h : after? head s = some rest) :
    rest.length + head.length = s.length := by
  rw [after?_eq_some_iff.1 h, List.length_append, Nat.add_comm]

/-- What stands before the first occurrence of `mark`, and what stands after it. -/
def cutAt? (mark : List Char) : List Char → Option (List Char × List Char)
  | [] => if mark.isEmpty then some ([], []) else none
  | c :: rest =>
    match after? mark (c :: rest) with
    | some tail => some ([], tail)
    | none => (cutAt? mark rest).map fun cut => (c :: cut.1, cut.2)

theorem eq_of_cutAt? {mark s before tail : List Char} (h : cutAt? mark s = some (before, tail)) :
    s = before ++ mark ++ tail := by
  induction s generalizing before tail with
  | nil =>
    simp only [cutAt?] at h
    split at h <;> simp_all
  | cons c rest ih =>
    simp only [cutAt?] at h
    split at h
    · obtain ⟨rfl, rfl⟩ := Prod.mk.inj (Option.some.inj h)
      simpa using after?_eq_some_iff.1 ‹_›
    · obtain ⟨cut, hcut, hc⟩ := Option.map_eq_some_iff.1 h
      obtain ⟨rfl, rfl⟩ := Prod.mk.inj hc
      simp [ih hcut]

theorem length_of_cutAt? {mark s before tail : List Char}
    (h : cutAt? mark s = some (before, tail)) : tail.length + mark.length ≤ s.length := by
  rw [eq_of_cutAt? h]
  simp only [List.length_append]
  omega

/-- The text up to the first `c`, and what follows that `c`. -/
def cutAtChar? (c : Char) (s : List Char) : Option (List Char × List Char) :=
  cutAt? [c] s

/-- Whether `part` occurs somewhere in a text. -/
def occursIn (part s : List Char) : Bool :=
  (cutAt? part s).isSome

/-- The text after the last `c`, or the whole text where there is none. -/
def afterLast (c : Char) (s : List Char) : List Char :=
  (s.reverse.takeWhile (· != c)).reverse

/-- The trimmed parts between commas, without the empty ones. -/
def commaParts (s : String) : List String :=
  ((s.toList.splitOn ',').map trim |>.filter (!·.isEmpty)).map .ofList

end SqlTemplate.Text
