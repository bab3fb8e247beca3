import Mathlib.Data.List.Basic
import Mathlib.Logic.Function.Iterate
import SqlTemplate.Proofs.Markers
import SqlTemplate.Proofs.Trimming

/-!
# Passes over a text

A pass cuts a text at its markers and writes it again with the same bodies in the markers. It
drops the escapes of the text and writes no new ones, so that what was escaped may be a marker
afterwards, and a brace that was kept in a body may close its marker. Whether it does so is a
question of what stands behind an escaped opening and of the braces in bodies.

## Main definitions

* `Marker.pass` : a text after a pass.
* `Marker.Lasting` : no pass changes how the text is cut.

## Main results

* `Marker.pieces_passes_iff` : passes keep the pieces of the lasting texts, and of no others.
* `Marker.passes_in_place_iff` : passes keep the pieces of a text whatever stands around it if and
  only if they keep the text.
* `Marker.trim_pass` : trimming commutes with a pass.
-/

namespace SqlTemplate.Marker

open Text

variable {k : Marker} {s rest body after : List Char} {c : Char}

/-! ### The end of a marker -/

theorem exists_of_closing? (h : closing? s = some (body, after)) :
    ∃ before, s = before ++ '}' :: after := by
  fun_induction closing? s generalizing body with
  | case1 => cases h
  | case2 s ih =>
    obtain ⟨r, hr, he⟩ := Option.map_eq_some_iff.1 h
    obtain ⟨-, rfl⟩ := Prod.mk.inj he
    obtain ⟨before, hbefore⟩ := ih hr
    exact ⟨'\\' :: '}' :: before, congrArg ('\\' :: '}' :: ·) hbefore⟩
  | case3 s =>
    obtain ⟨-, rfl⟩ := Prod.mk.inj (Option.some.inj h)
    exact ⟨[], rfl⟩
  | case4 c s hc hne ih =>
    obtain ⟨r, hr, he⟩ := Option.map_eq_some_iff.1 h
    obtain ⟨-, rfl⟩ := Prod.mk.inj he
    obtain ⟨before, hbefore⟩ := ih hr
    exact ⟨c :: before, congrArg (c :: ·) hbefore⟩

/-- A character that is no part of an escape and closes nothing belongs to the body. -/
theorem closing?_cons (hc : c ≠ '}') (hs : c = '\\' → s.head? ≠ some '}') :
    closing? (c :: s) = (closing? s).map fun r => (c :: r.1, r.2) := by
  rw [closing?]
  · rw [if_neg hc]
  · rintro rest rfl rfl
    exact hs rfl rfl

/-- A text that does not begin with a closing brace does not do so when it goes on. -/
theorem head?_append_ne_brace {t : List Char} (hs : ∀ rest, s ≠ '}' :: rest)
    (ht : s = [] → t.head? ≠ some '}') : (s ++ t).head? ≠ some '}' := by
  cases s with
  | nil => exact ht rfl
  | cons d s =>
    intro h
    exact hs s (congrArg (· :: s) (Option.some.inj h))

/-- A marker that is closed is closed in the same place in a longer text. -/
theorem closing?_append (h : closing? s = some (body, after)) (t : List Char) :
    closing? (s ++ t) = some (body, after ++ t) := by
  fun_induction closing? s generalizing body with
  | case1 => cases h
  | case2 s ih =>
    obtain ⟨r, hr, he⟩ := Option.map_eq_some_iff.1 h
    obtain ⟨rfl, rfl⟩ := Prod.mk.inj he
    rw [List.cons_append, List.cons_append, closing?, ih hr, Option.map_some]
  | case3 s =>
    obtain ⟨rfl, rfl⟩ := Prod.mk.inj (Option.some.inj h)
    rfl
  | case4 c s hc hne ih =>
    obtain ⟨r, hr, he⟩ := Option.map_eq_some_iff.1 h
    obtain ⟨rfl, rfl⟩ := Prod.mk.inj he
    have hs (hback : c = '\\') : (s ++ t).head? ≠ some '}' := by
      refine head?_append_ne_brace (fun rest => hc rest hback) ?_
      rintro rfl
      cases hr
    rw [List.cons_append, closing?_cons hne hs, ih hr, Option.map_some]

/-- A marker that is not closed is not closed in a text that goes on without a brace. -/
theorem closing?_append_eq_none (h : closing? s = none) {t : List Char} (ht : '}' ∉ t) :
    closing? (s ++ t) = none := by
  have hfree : ∀ u : List Char, '}' ∉ u → closing? u = none := by
    intro u hu
    induction u with
    | nil => rfl
    | cons c u ih =>
      rw [List.mem_cons, not_or] at hu
      have hhead : c = '\\' → u.head? ≠ some '}' :=
        fun _ hhead => hu.2 (List.mem_of_mem_head? hhead)
      rw [closing?_cons (Ne.symm hu.1) hhead, ih hu.2, Option.map_none]
  fun_induction closing? s with
  | case1 => exact hfree t ht
  | case2 s ih =>
    rw [List.cons_append, List.cons_append, closing?, ih (Option.map_eq_none_iff.1 h),
      Option.map_none]
  | case3 s => cases h
  | case4 c s hc hne ih =>
    have hs (hback : c = '\\') : (s ++ t).head? ≠ some '}' :=
      head?_append_ne_brace (fun rest => hc rest hback)
        fun _ hhead => ht (List.mem_of_mem_head? hhead)
    rw [List.cons_append, closing?_cons hne hs, ih (Option.map_eq_none_iff.1 h), Option.map_none]

/-- The braces in a body are the escaped ones, with a backslash each. -/
theorem length_eq_of_closing? (h : closing? s = some (body, after)) :
    s.length = body.length + body.count '}' + after.length + 1 := by
  fun_induction closing? s generalizing body with
  | case1 => cases h
  | case2 s ih =>
    obtain ⟨r, hr, he⟩ := Option.map_eq_some_iff.1 h
    obtain ⟨rfl, rfl⟩ := Prod.mk.inj he
    have hlength := ih hr
    rw [List.length_cons, List.length_cons, List.length_cons, List.count_cons_self]
    omega
  | case3 s =>
    obtain ⟨rfl, rfl⟩ := Prod.mk.inj (Option.some.inj h)
    rw [List.length_cons, List.length_nil, List.count_nil]
    omega
  | case4 c s hc hne ih =>
    obtain ⟨r, hr, he⟩ := Option.map_eq_some_iff.1 h
    obtain ⟨rfl, rfl⟩ := Prod.mk.inj he
    have hlength := ih hr
    rw [List.length_cons, List.length_cons, List.count_cons_of_ne hne]
    omega

/-- A body without a brace stands in the text as it is. -/
theorem eq_of_closing? (h : closing? s = some (body, after)) (hb : '}' ∉ body) :
    s = body ++ '}' :: after := by
  fun_induction closing? s generalizing body with
  | case1 => cases h
  | case2 s ih =>
    obtain ⟨r, -, he⟩ := Option.map_eq_some_iff.1 h
    obtain ⟨rfl, -⟩ := Prod.mk.inj he
    exact absurd (List.mem_cons_self ..) hb
  | case3 s =>
    obtain ⟨rfl, rfl⟩ := Prod.mk.inj (Option.some.inj h)
    rfl
  | case4 c s hc hne ih =>
    obtain ⟨r, hr, he⟩ := Option.map_eq_some_iff.1 h
    obtain ⟨rfl, rfl⟩ := Prod.mk.inj he
    rw [List.cons_append, ← ih hr fun hmem => hb (List.mem_cons_of_mem _ hmem)]

/-- No body ends in a backslash: the brace after it would be escaped. -/
theorem getLast?_of_closing? (h : closing? s = some (body, after)) :
    body.getLast? ≠ some '\\' := by
  fun_induction closing? s generalizing body with
  | case1 => cases h
  | case2 s ih =>
    obtain ⟨r, hr, he⟩ := Option.map_eq_some_iff.1 h
    obtain ⟨rfl, rfl⟩ := Prod.mk.inj he
    have hlast := ih hr
    rw [List.getLast?_cons]
    cases hb : r.1.getLast? <;> simp_all
  | case3 s =>
    obtain ⟨rfl, rfl⟩ := Prod.mk.inj (Option.some.inj h)
    simp
  | case4 c s hc hne ih =>
    obtain ⟨⟨b, a⟩, hr, he⟩ := Option.map_eq_some_iff.1 h
    obtain ⟨rfl, rfl⟩ := Prod.mk.inj he
    have hlast := ih hr
    cases b with
    | nil =>
      have hs : s = '}' :: a := eq_of_closing? hr (List.not_mem_nil)
      rintro hcon
      exact hc a (Option.some.inj hcon) hs
    | cons d b => rwa [List.getLast?_cons_cons]

/-- Where a body stands in a text, its marker is closed at the brace behind it or before. -/
theorem exists_closing?_append (hlast : body.getLast? ≠ some '\\') (t : List Char) :
    ∃ b between, closing? (body ++ '}' :: t) = some (b, between ++ t) := by
  fun_induction closing? body with
  | case1 => exact ⟨[], [], rfl⟩
  | case2 rest ih =>
    have hrest : rest.getLast? ≠ some '\\' := by
      intro hcon
      rw [List.getLast?_cons, List.getLast?_cons, hcon] at hlast
      exact hlast rfl
    obtain ⟨b, between, h⟩ := ih hrest
    refine ⟨'}' :: b, between, ?_⟩
    rw [List.cons_append, List.cons_append, closing?, h, Option.map_some]
  | case3 rest =>
    refine ⟨[], rest ++ ['}'], ?_⟩
    rw [List.cons_append, closing?]
    · simp
    · simp
  | case4 c rest hc hne ih =>
    have hrest : rest.getLast? ≠ some '\\' := by
      intro hcon
      rw [List.getLast?_cons, hcon] at hlast
      exact hlast rfl
    have hhead (hback : c = '\\') : (rest ++ '}' :: t).head? ≠ some '}' := by
      refine head?_append_ne_brace (fun tail => hc tail hback) ?_
      rintro rfl
      exact absurd (congrArg some hback) hlast
    obtain ⟨b, between, h⟩ := ih hrest
    exact ⟨c :: b, between, by rw [List.cons_append, closing?_cons hne hhead, h, Option.map_some]⟩

/-- A body without a brace is the body of its marker again, whatever comes after the marker. -/
theorem closing?_body (hb : '}' ∉ body) (hlast : body.getLast? ≠ some '\\') (t : List Char) :
    closing? (body ++ '}' :: t) = some (body, t) := by
  induction body with
  | nil => rfl
  | cons c body ih =>
    rw [List.mem_cons, not_or] at hb
    have hrest : body.getLast? ≠ some '\\' := by
      intro hcon
      rw [List.getLast?_cons, hcon] at hlast
      exact hlast rfl
    have hhead (hback : c = '\\') : (body ++ '}' :: t).head? ≠ some '}' := by
      refine head?_append_ne_brace ?_ ?_
      · rintro rest rfl
        exact hb.2 (List.mem_cons_self ..)
      · rintro rfl
        exact absurd (congrArg some hback) hlast
    rw [List.cons_append, closing?_cons (Ne.symm hb.1) hhead, ih hb.2 hrest, Option.map_some]

/-! ### Passes -/

/-- A text after a pass: cut at its markers and put together again. -/
def pass (k : Marker) (s : List Char) : List Char :=
  refill k id s

/-- What a pass makes of a text is a function of the text's pieces. -/
theorem pass_congr {t : List Char} (h : pieces k s = pieces k t) : pass k s = pass k t := by
  rw [pass, pass, refill, refill, h]

/-- Markers that keep their bodies are rewritten by a pass. -/
theorem refill_eq_pass {f : List Char → List Char}
    (h : ∀ body, .token body ∈ pieces k s → f body = body) : refill k f s = pass k s := by
  rw [pass, refill, refill]
  refine List.flatMap_congr fun p hp => ?_
  cases p with
  | char c => rfl
  | token body => rw [Piece.refill, Piece.refill, h body hp, id]

@[simp] theorem pass_nil (k : Marker) : pass k [] = [] := by
  rw [pass, refill, pieces_nil, List.flatMap_nil]

theorem pass_escaped (k : Marker) (rest : List Char) :
    pass k ('\\' :: k.mark :: '{' :: rest) = k.mark :: '{' :: pass k rest := by
  rw [pass, refill, pieces_escaped]
  rfl

theorem pass_plain (h : front k (c :: rest) = .plain c rest) :
    pass k (c :: rest) = c :: pass k rest := by
  rw [pass, refill, pieces_plain h]
  rfl

theorem pass_unclosed (k : Marker) (h : closing? rest = none) :
    pass k (k.mark :: '{' :: rest) = k.mark :: '{' :: rest := by
  have hchars (t : List Char) : (t.map Piece.char).flatMap (Piece.refill k id) = t := by
    rw [List.flatMap_map]
    exact List.flatMap_singleton' t
  rw [pass, refill, pieces_unclosed k h, hchars]

theorem pass_marker (k : Marker) (h : closing? rest = some (body, after)) :
    pass k (k.mark :: '{' :: rest) = k.mark :: '{' :: (body ++ '}' :: pass k after) := by
  rw [pass, refill, pieces_marker k h, List.flatMap_cons, Piece.refill, id, List.cons_append,
    List.cons_append, List.append_assoc]
  rfl

/-- A pass keeps a text, or drops something of it. -/
theorem pass_eq_or_length_lt (k : Marker) (s : List Char) :
    pass k s = s ∨ (pass k s).length < s.length := by
  induction s using cut_induction k with
  | done => exact Or.inl (pass_nil k)
  | escaped rest ih =>
    right
    have hle : (pass k rest).length ≤ rest.length := by
      rcases ih with h | h
      · exact Nat.le_of_eq (congrArg List.length h)
      · exact Nat.le_of_lt h
    rw [pass_escaped]
    simp only [List.length_cons]
    omega
  | plain c rest hf ih =>
    rw [pass_plain hf, List.length_cons, List.length_cons]
    rcases ih with h | h
    · exact Or.inl (congrArg (c :: ·) h)
    · exact Or.inr (Nat.succ_lt_succ h)
  | unclosed rest hc => exact Or.inl (pass_unclosed k hc)
  | marker rest body after hc ih =>
    have hlength := length_eq_of_closing? hc
    rw [pass_marker k hc]
    simp only [List.length_cons, List.length_append]
    by_cases hb : '}' ∈ body
    · have hcount : 0 < body.count '}' := List.count_pos_iff.2 hb
      right
      rcases ih with h | h
      · rw [h]
        omega
      · omega
    · rcases ih with h | h
      · rw [h, ← eq_of_closing? hc hb]
        exact Or.inl rfl
      · right
        omega

theorem length_pass_le (k : Marker) (s : List Char) : (pass k s).length ≤ s.length := by
  rcases pass_eq_or_length_lt k s with h | h
  · exact Nat.le_of_eq (congrArg List.length h)
  · exact Nat.le_of_lt h

/-! ### The front of a text after a pass -/

theorem front_eq_plain_iff :
    front k (c :: rest) = .plain c rest ↔
      (c = '\\' → ∀ r, rest ≠ k.mark :: '{' :: r) ∧ (c = k.mark → ∀ r, rest ≠ '{' :: r) := by
  constructor
  · intro h
    refine ⟨?_, ?_⟩
    · rintro rfl r rfl
      rw [front_eq_escaped] at h
      cases h
    · rintro rfl r rfl
      rw [front_eq_opened] at h
      cases h
  · rintro ⟨hescaped, hopened⟩
    cases hf : front k (c :: rest) with
    | done => cases eq_nil_of_front hf
    | escaped r =>
      obtain ⟨rfl, rfl⟩ := List.cons.inj (eq_of_front_escaped hf)
      exact absurd rfl (hescaped rfl r)
    | opened r =>
      obtain ⟨rfl, rfl⟩ := List.cons.inj (eq_of_front_opened hf)
      exact absurd rfl (hopened rfl r)
    | plain d r =>
      obtain ⟨rfl, rfl⟩ := List.cons.inj (eq_of_front_plain hf)
      rfl

theorem mark_ne_brace (k : Marker) : k.mark ≠ '{' := by
  cases k <;> decide

theorem mark_ne_backslash (k : Marker) : k.mark ≠ '\\' := by
  cases k <;> decide

/-- A brace that opens a text after a pass opened it before. -/
theorem exists_of_pass_eq_brace {r : List Char} (h : pass k s = '{' :: r) :
    ∃ r', s = '{' :: r' := by
  induction s using cut_induction k with
  | done => cases (pass_nil k).symm.trans h
  | escaped rest _ =>
    rw [pass_escaped] at h
    exact absurd (List.cons.inj h).1 (mark_ne_brace k)
  | plain c rest hf _ =>
    rw [pass_plain hf] at h
    exact ⟨rest, congrArg (· :: rest) (List.cons.inj h).1⟩
  | unclosed rest hc =>
    rw [pass_unclosed k hc] at h
    exact absurd (List.cons.inj h).1 (mark_ne_brace k)
  | marker rest body after hc _ =>
    rw [pass_marker k hc] at h
    exact absurd (List.cons.inj h).1 (mark_ne_brace k)

/-- An opening at the front of a text after a pass was there before, or it was escaped. -/
theorem exists_of_pass_eq_opening {r : List Char} (h : pass k s = k.mark :: '{' :: r) :
    (∃ r', s = k.mark :: '{' :: r') ∨ ∃ r', s = '\\' :: k.mark :: '{' :: r' := by
  induction s using cut_induction k with
  | done => cases (pass_nil k).symm.trans h
  | escaped rest _ => exact Or.inr ⟨rest, rfl⟩
  | plain c rest hf _ =>
    rw [pass_plain hf, List.cons.injEq] at h
    obtain ⟨r', rfl⟩ := exists_of_pass_eq_brace h.2
    exact absurd rfl ((front_eq_plain_iff.1 hf).2 h.1 r')
  | unclosed rest _ => exact Or.inl ⟨rest, rfl⟩
  | marker rest body after _ _ => exact Or.inl ⟨rest, rfl⟩

/-- A plain character stays one after a pass, but for a backslash before an escaped opening. -/
theorem front_pass (h : front k (c :: rest) = .plain c rest)
    (hc : c = '\\' → ∀ r, rest ≠ '\\' :: k.mark :: '{' :: r) :
    front k (c :: pass k rest) = .plain c (pass k rest) := by
  obtain ⟨hescaped, hopened⟩ := front_eq_plain_iff.1 h
  refine front_eq_plain_iff.2 ⟨fun hback r hr => ?_, fun hmark r hr => ?_⟩
  · rcases exists_of_pass_eq_opening hr with ⟨r', rfl⟩ | ⟨r', rfl⟩
    · exact hescaped hback r' rfl
    · exact hc hback r' rfl
  · obtain ⟨r', rfl⟩ := exists_of_pass_eq_brace hr
    exact hopened hmark r' rfl

/-- A plain character stays one in a text that goes on without an opening brace. -/
theorem front_append (h : front k (c :: rest) = .plain c rest) {t : List Char} (ht : '{' ∉ t) :
    front k (c :: (rest ++ t)) = .plain c (rest ++ t) := by
  obtain ⟨hescaped, hopened⟩ := front_eq_plain_iff.1 h
  refine front_eq_plain_iff.2 ⟨fun hback r hr => ?_, fun hmark r hr => ?_⟩
  · match rest with
    | [] =>
      rw [List.nil_append] at hr
      simp [hr] at ht
    | [d] =>
      obtain ⟨-, rfl⟩ := List.cons.inj hr
      simp at ht
    | d :: e :: rest =>
      simp only [List.cons_append, List.cons.injEq] at hr
      obtain ⟨rfl, rfl, -⟩ := hr
      exact hescaped hback rest rfl
  · match rest with
    | [] =>
      rw [List.nil_append] at hr
      simp [hr] at ht
    | d :: rest =>
      obtain ⟨rfl, -⟩ := List.cons.inj hr
      exact hopened hmark rest rfl

/-! ### Lasting texts -/

/-- The texts that are cut after a pass as they are before it: no backslash stands before an
escaped opening and no brace behind it could close a marker, and no body has a brace in it. -/
inductive Lasting (k : Marker) : List Char → Prop where
  | done : Lasting k []
  | plain (c : Char) (rest : List Char) (hf : front k (c :: rest) = .plain c rest)
      (hc : c = '\\' → ∀ r, rest ≠ '\\' :: k.mark :: '{' :: r) (h : Lasting k rest) :
      Lasting k (c :: rest)
  | escaped (rest : List Char) (h : closing? (pass k rest) = none) :
      Lasting k ('\\' :: k.mark :: '{' :: rest)
  | unclosed (rest : List Char) (h : closing? rest = none) : Lasting k (k.mark :: '{' :: rest)
  | marker (rest body after : List Char) (hc : closing? rest = some (body, after))
      (hb : '}' ∉ body) (h : Lasting k after) : Lasting k (k.mark :: '{' :: rest)

/-- A text has no marker, or a pass leaves a brace in it that closes what is opened before. -/
theorem chars_or_exists_brace (k : Marker) (s : List Char) :
    pieces k s = (pass k s).map .char ∨
      ∃ w v d, pass k s = w ++ '}' :: v ∧ w.getLast? = some d ∧ d ≠ '\\' := by
  induction s using cut_induction k with
  | done => exact Or.inl (by rw [pass_nil, pieces_nil, List.map_nil])
  | escaped rest ih =>
    rw [pass_escaped, pieces_escaped]
    rcases ih with h | ⟨w, v, d, h, hlast, hd⟩
    · exact Or.inl (by rw [h, List.map_cons, List.map_cons])
    · refine Or.inr ⟨k.mark :: '{' :: w, v, d, by rw [h]; rfl, ?_, hd⟩
      rw [List.getLast?_cons, List.getLast?_cons, hlast]
      rfl
  | plain c rest hf ih =>
    rw [pass_plain hf, pieces_plain hf]
    rcases ih with h | ⟨w, v, d, h, hlast, hd⟩
    · exact Or.inl (by rw [h, List.map_cons])
    · refine Or.inr ⟨c :: w, v, d, by rw [h]; rfl, ?_, hd⟩
      rw [List.getLast?_cons, hlast]
      rfl
  | unclosed rest hc => exact Or.inl (by rw [pass_unclosed k hc, pieces_unclosed k hc])
  | marker rest body after hc _ =>
    have hlast := getLast?_of_closing? hc
    refine Or.inr ⟨k.mark :: '{' :: body, pass k after, body.getLast?.getD '{',
      pass_marker k hc, ?_, ?_⟩
    · rw [List.getLast?_cons, List.getLast?_cons]
      cases body.getLast? <;> rfl
    · cases hb : body.getLast? with
      | none => exact fun h => absurd h (by decide)
      | some d => exact fun h => hlast (hb.trans (congrArg some h))

/-- A text in which a pass leaves no brace to close a marker has no marker. -/
theorem pieces_eq_chars_of_pass (h : closing? (pass k s) = none) :
    pieces k s = (pass k s).map .char := by
  rcases chars_or_exists_brace k s with hchars | ⟨w, v, d, hs, hlast, hd⟩
  · exact hchars
  · have hw : w.getLast? ≠ some '\\' := fun hcon => hd (Option.some.inj (hlast.symm.trans hcon))
    obtain ⟨b, between, hclosing⟩ := exists_closing?_append hw v
    rw [hs, hclosing] at h
    cases h

/-- A pass keeps the pieces of the lasting texts, and of no others. -/
theorem pieces_pass_iff (k : Marker) (s : List Char) :
    pieces k (pass k s) = pieces k s ↔ Lasting k s := by
  constructor
  · intro h
    induction s using cut_induction k with
    | done => exact .done
    | escaped rest ih =>
      rw [pass_escaped, pieces_escaped] at h
      cases hc : closing? (pass k rest) with
      | none => exact .escaped rest hc
      | some r =>
        rw [pieces_marker k hc] at h
        cases (List.cons.inj h).1
    | plain c rest hf ih =>
      rw [pass_plain hf, pieces_plain hf] at h
      have hc : c = '\\' → ∀ r, rest ≠ '\\' :: k.mark :: '{' :: r := by
        rintro rfl r rfl
        rw [pass_escaped, pieces_escaped] at h
        exact mark_ne_backslash k (Piece.char.inj (List.cons.inj h).1)
      rw [pieces_plain (front_pass hf hc)] at h
      exact .plain c rest hf hc (ih (List.cons.inj h).2)
    | unclosed rest hc => exact .unclosed rest hc
    | marker rest body after hc ih =>
      obtain ⟨b, between, hclosing⟩ :=
        exists_closing?_append (getLast?_of_closing? hc) (pass k after)
      rw [pass_marker k hc, pieces_marker k hclosing, pieces_marker k hc] at h
      obtain rfl := Piece.token.inj (List.cons.inj h).1
      have hb : '}' ∉ b := by
        have hlength := length_eq_of_closing? hclosing
        simp only [List.length_append, List.length_cons] at hlength
        exact List.count_eq_zero.1 (by omega)
      have hbetween : between ++ pass k after = pass k after := by
        rw [closing?_body hb (getLast?_of_closing? hc)] at hclosing
        exact (Prod.mk.inj (Option.some.inj hclosing)).2.symm
      rw [hbetween] at h
      exact .marker rest b after hc hb (ih (List.cons.inj h).2)
  · intro h
    induction h with
    | done => rw [pass_nil]
    | plain c rest hf hc _ ih =>
      rw [pass_plain hf, pieces_plain (front_pass hf hc), ih, pieces_plain hf]
    | escaped rest h =>
      rw [pass_escaped, pieces_unclosed k h, pieces_escaped, pieces_eq_chars_of_pass h]
      rfl
    | unclosed rest h => rw [pass_unclosed k h]
    | marker rest body after hc hb _ ih =>
      rw [pass_marker k hc, pieces_marker k (closing?_body hb (getLast?_of_closing? hc) _), ih,
        pieces_marker k hc]

/-- Any number of passes after the first keeps the pieces of the lasting texts, and of no
others. -/
theorem pieces_passes_iff (k : Marker) (s : List Char) (n : Nat) :
    pieces k ((pass k)^[n + 1] s) = pieces k s ↔ Lasting k s := by
  rw [← pieces_pass_iff]
  have hfixed (h : pass k (pass k s) = pass k s) : (pass k)^[n + 1] s = pass k s := by
    rw [Function.iterate_succ_apply, Function.iterate_fixed h]
  constructor
  · intro h
    -- a text that went through the passes has lost as much as after the first
    have hback : pass k ((pass k)^[n + 1] s) = pass k s := pass_congr h
    have hle (m : Nat) : ((pass k)^[m] (pass k (pass k s))).length ≤
        (pass k (pass k s)).length := by
      induction m with
      | zero => exact Nat.le_refl _
      | succ m ih =>
        rw [Function.iterate_succ_apply']
        exact Nat.le_trans (length_pass_le k _) ih
    have hlength := hle n
    rw [← Function.iterate_succ_apply, ← Function.iterate_succ_apply,
      Function.iterate_succ_apply' (pass k) (n + 1), hback] at hlength
    have hpass : pass k (pass k s) = pass k s :=
      (pass_eq_or_length_lt k (pass k s)).resolve_right (by omega)
    rwa [hfixed hpass] at h
  · intro h
    rw [hfixed (pass_congr h), h]

/-! ### Texts in their place -/

theorem exists_closing?_append_brace (s : List Char) :
    ∃ r, closing? (s ++ [' ', '}']) = some r := by
  have hlast : (s ++ [' ']).getLast? ≠ some '\\' := by
    simp
  obtain ⟨b, between, h⟩ := exists_closing?_append hlast []
  rw [List.append_assoc] at h
  exact ⟨_, h⟩

/-- A lasting text that is cut alike before and after a pass also where a brace comes after it is
the same before and after. -/
theorem pass_eq_self_of_brace (hs : Lasting k s)
    (h : pieces k (pass k s ++ [' ', '}']) = pieces k (s ++ [' ', '}'])) : pass k s = s := by
  have hbrace : '{' ∉ [' ', '}'] := by decide
  induction hs with
  | done => exact pass_nil k
  | plain c rest hf hc _ ih =>
    rw [pass_plain hf, List.cons_append, List.cons_append,
      pieces_plain (front_append (front_pass hf hc) hbrace),
      pieces_plain (front_append hf hbrace)] at h
    rw [pass_plain hf, ih (List.cons.inj h).2]
  | escaped rest hc =>
    obtain ⟨⟨body, after⟩, hr⟩ := exists_closing?_append_brace (pass k rest)
    rw [pass_escaped, List.cons_append, List.cons_append, pieces_marker k hr, List.cons_append,
      List.cons_append, List.cons_append, pieces_escaped] at h
    cases (List.cons.inj h).1
  | unclosed rest hc => exact pass_unclosed k hc
  | marker rest body after hc hb _ ih =>
    rw [pass_marker k hc, List.cons_append, List.cons_append, List.append_assoc, List.cons_append,
      pieces_marker k (closing?_body hb (getLast?_of_closing? hc) _), List.cons_append,
      List.cons_append, pieces_marker k (closing?_append hc _)] at h
    rw [pass_marker k hc, ih (List.cons.inj h).2, ← eq_of_closing? hc hb]

/-- Any number of passes after the first keeps the pieces of a text whatever stands around it if
and only if it keeps the text itself. -/
theorem passes_in_place_iff (k : Marker) (s : List Char) (n : Nat) :
    (∀ t u, pieces k (t ++ (pass k)^[n + 1] s ++ u) = pieces k (t ++ s ++ u)) ↔ pass k s = s := by
  constructor
  · intro h
    have halone := h [] []
    simp only [List.nil_append, List.append_nil] at halone
    have hlasting := (pieces_passes_iff k s n).1 halone
    have hpass : (pass k)^[n + 1] s = pass k s := by
      rw [Function.iterate_succ_apply, Function.iterate_fixed
        (pass_congr ((pieces_pass_iff k s).2 hlasting))]
    have hbrace := h [] [' ', '}']
    rw [hpass, List.nil_append, List.nil_append] at hbrace
    exact pass_eq_self_of_brace hlasting hbrace
  · intro h t u
    rw [Function.iterate_fixed h]

/-! ### Trimming -/

/-- A pass keeps what comes after a text, where that has no braces. -/
theorem pass_append (k : Marker) (s : List Char) {t : List Char} (hopen : '{' ∉ t)
    (hclose : '}' ∉ t) : pass k (s ++ t) = pass k s ++ t := by
  induction s using cut_induction k with
  | done =>
    rw [pass_nil, List.nil_append]
    induction t with
    | nil => exact pass_nil k
    | cons c t ih =>
      rw [List.mem_cons, not_or] at hopen hclose
      have hf : front k (c :: t) = .plain c t := by
        refine front_eq_plain_iff.2 ⟨fun _ r hr => ?_, fun _ r hr => ?_⟩
        · simp [hr] at hopen
        · simp [hr] at hopen
      rw [pass_plain hf, ih hopen.2 hclose.2]
  | escaped rest ih =>
    rw [List.cons_append, List.cons_append, List.cons_append, pass_escaped, pass_escaped, ih]
    rfl
  | plain c rest hf ih =>
    rw [List.cons_append, pass_plain (front_append hf hopen), pass_plain hf, ih, List.cons_append]
  | unclosed rest hc =>
    rw [List.cons_append, List.cons_append, pass_unclosed k (closing?_append_eq_none hc hclose),
      pass_unclosed k hc]
    rfl
  | marker rest body after hc ih =>
    rw [List.cons_append, List.cons_append, pass_marker k (closing?_append hc t),
      pass_marker k hc, ih]
    simp only [List.cons_append, List.append_assoc]

theorem getLast?_pass (k : Marker) (s : List Char) : (pass k s).getLast? = s.getLast? := by
  induction s using cut_induction k with
  | done => rw [pass_nil]
  | escaped rest ih =>
    rw [pass_escaped]
    simp only [List.getLast?_cons, ih, Option.getD_some]
  | plain c rest hf ih => rw [pass_plain hf, List.getLast?_cons, ih, List.getLast?_cons]
  | unclosed rest hc => rw [pass_unclosed k hc]
  | marker rest body after hc ih =>
    obtain ⟨before, rfl⟩ := exists_of_closing? hc
    rw [pass_marker k hc]
    simp only [List.getLast?_cons, List.getLast?_append, ih, Option.some_or, Option.getD_some]

theorem head?_pass (k : Marker) (s : List Char) :
    (pass k s).head? = s.head? ∨ (pass k s).head? = some k.mark := by
  induction s using cut_induction k with
  | done => exact Or.inl (by rw [pass_nil])
  | escaped rest _ => exact Or.inr (by rw [pass_escaped, List.head?_cons])
  | plain c rest hf _ => exact Or.inl (by rw [pass_plain hf, List.head?_cons, List.head?_cons])
  | unclosed rest hc => exact Or.inl (by rw [pass_unclosed k hc])
  | marker rest body after hc _ => exact Or.inr (by rw [pass_marker k hc, List.head?_cons])

theorem isBlank_mark (k : Marker) : isBlank k.mark = false := by
  cases k <;> rfl

theorem trimStart_pass (k : Marker) (s : List Char) :
    trimStart (pass k s) = pass k (trimStart s) := by
  induction s with
  | nil =>
    rw [pass_nil]
    exact (pass_nil k).symm
  | cons c s ih =>
    by_cases hc : isBlank c = true
    · have hf : front k (c :: s) = .plain c s := by
        refine front_eq_plain_iff.2 ⟨?_, ?_⟩
        · rintro rfl
          cases hc
        · rintro rfl
          rw [isBlank_mark] at hc
          cases hc
      rw [pass_plain hf, trimStart_cons_blank hc, trimStart_cons_blank hc, ih]
    · have hblank : isBlank c = false := Bool.eq_false_iff.2 hc
      rw [trimStart_cons_word hblank]
      refine trimStart_of_head? fun d hd => ?_
      rcases head?_pass k (c :: s) with h | h
      · rw [h, List.head?_cons] at hd
        exact Option.some.inj hd ▸ hblank
      · obtain rfl := Option.some.inj (h.symm.trans hd)
        exact isBlank_mark k

theorem trimEnd_pass (k : Marker) (s : List Char) : trimEnd (pass k s) = pass k (trimEnd s) := by
  induction s using List.reverseRecOn with
  | nil =>
    rw [pass_nil]
    exact (pass_nil k).symm
  | append_singleton s c ih =>
    cases hc : isBlank c with
    | true =>
      have hopen : '{' ∉ [c] := by
        rw [List.mem_singleton]
        rintro rfl
        cases hc
      have hclose : '}' ∉ [c] := by
        rw [List.mem_singleton]
        rintro rfl
        cases hc
      rw [pass_append k s hopen hclose, trimEnd_concat_blank _ hc, trimEnd_concat_blank _ hc, ih]
    | false =>
      have hlast : (pass k (s ++ [c])).getLast? = some c := by
        rw [getLast?_pass, List.getLast?_concat]
      rw [trimEnd_of_getLast? hlast hc, trimEnd_concat_word s hc]

/-- Trimming commutes with a pass. -/
theorem trim_pass (k : Marker) (s : List Char) : trim (pass k s) = pass k (trim s) := by
  rw [trim, trim, trimStart_pass, trimEnd_pass]

end SqlTemplate.Marker
