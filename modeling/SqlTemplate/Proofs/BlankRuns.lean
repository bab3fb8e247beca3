import Mathlib
import SqlTemplate.Binding.BoundSql
import SqlTemplate.Proofs.IterationNames
import SqlTemplate.Proofs.Passes
import SqlTemplate.Proofs.PathCuts
import SqlTemplate.Proofs.WrittenCharacters

/-!
# Blank runs

A text with every blank run written as one space differs from the text in no character that is not
blank. Markers, their escapes and the separators within them are made of such characters, so that
it does not matter whether blank runs are written as one space before a text is cut up, or in each
of its pieces afterwards.

## Main definitions

* `Text.squeeze` : a text with every blank run written as one space.
* `Marker.squeezePieces` : the same for the pieces of a text.

## Main results

* `Text.collapse_eq` : collapsing is trimming, and writing blank runs as one space.
* `Text.cutAtChar?_squeeze`, `Text.splitOn_squeeze` : cutting at characters that are not blank.
* `Marker.pieces_squeeze` : cutting a text at its markers.
* `Marker.number_squeezePieces` : writing placeholders.
* `Marker.trim_number` : a trimmed text is trimmed with placeholders as well.
-/

namespace SqlTemplate

open Text

namespace Text

variable {s t : List Char} {c : Char}

theorem isBlank_of_isAlphanum (hc : c.isAlphanum = true) : isBlank c = false := by
  rw [← Bool.not_eq_true]
  intro hblank
  have hplain := isPlain_of_isBlank hblank
  rw [isPlain, isAlphanumeric_of_isAlphanum hc] at hplain
  cases hplain

/-- A text with every blank run written as one space, also those at the ends. -/
def squeeze : List Char → List Char
  | [] => []
  | c :: rest =>
    if isBlank c then
      if startsBlank rest then squeeze rest else ' ' :: squeeze rest
    else c :: squeeze rest

@[simp] theorem squeeze_nil : squeeze [] = [] :=
  rfl

theorem squeeze_word (hc : isBlank c = false) (s : List Char) :
    squeeze (c :: s) = c :: squeeze s := by
  rw [squeeze, if_neg (by simp [hc])]

theorem squeeze_blank (hc : isBlank c = true) (s : List Char) :
    squeeze (c :: s) = if startsBlank s then squeeze s else ' ' :: squeeze s := by
  rw [squeeze, if_pos hc]

/-- A text may be taken apart before a character that is not blank. -/
theorem squeeze_append_word (hc : isBlank c = false) (s t : List Char) :
    squeeze (s ++ c :: t) = squeeze s ++ c :: squeeze t := by
  induction s with
  | nil => exact squeeze_word hc t
  | cons d s ih =>
    have hstarts : startsBlank (s ++ c :: t) = startsBlank s := by
      cases s with
      | nil => exact hc
      | cons e s => rfl
    cases hd : isBlank d with
    | false => rw [List.cons_append, squeeze_word hd, squeeze_word hd, ih, List.cons_append]
    | true =>
      rw [List.cons_append, squeeze_blank hd, squeeze_blank hd, hstarts, ih]
      split <;> rfl

theorem squeeze_append_of_forall (hs : ∀ c ∈ s, isBlank c = false) (t : List Char) :
    squeeze (s ++ t) = s ++ squeeze t := by
  induction s with
  | nil => rfl
  | cons c s ih =>
    obtain ⟨hc, hrest⟩ := List.forall_mem_cons.1 hs
    rw [List.cons_append, squeeze_word hc, ih hrest, List.cons_append]

/-- A text without blanks stays as it is. -/
theorem squeeze_of_forall (hs : ∀ c ∈ s, isBlank c = false) : squeeze s = s := by
  simpa using squeeze_append_of_forall hs []

theorem mem_squeeze (hc : isBlank c = false) : c ∈ squeeze s ↔ c ∈ s := by
  have hspace : c ≠ ' ' := by
    rintro rfl
    cases hc
  induction s with
  | nil => rfl
  | cons d s ih =>
    cases hd : isBlank d with
    | false =>
      rw [squeeze_word hd, List.mem_cons, List.mem_cons]
      exact or_congr_right ih
    | true =>
      have hne : c ≠ d := by
        rintro rfl
        exact Bool.false_ne_true (hc.symm.trans hd)
      rw [squeeze_blank hd]
      split <;> simp [ih, hspace, hne]

theorem exists_blank_of_squeeze (h : ∃ c ∈ s, isBlank c = true) :
    ∃ c ∈ squeeze s, isBlank c = true := by
  induction s with
  | nil => exact h
  | cons d s ih =>
    cases hd : isBlank d with
    | false =>
      obtain ⟨c, hc, hblank⟩ := h
      rcases List.mem_cons.1 hc with rfl | hc
      · exact absurd (hd.symm.trans hblank) Bool.false_ne_true
      · obtain ⟨e, he, hblank⟩ := ih ⟨c, hc, hblank⟩
        exact ⟨e, by rw [squeeze_word hd]; exact List.mem_cons_of_mem _ he, hblank⟩
    | true =>
      rw [squeeze_blank hd]
      split
      · rename_i hstarts
        cases s with
        | nil => cases hstarts
        | cons e s => exact ih ⟨e, List.mem_cons_self, hstarts⟩
      · exact ⟨' ', List.mem_cons_self, rfl⟩

theorem isBlank_of_mem_squeeze (hs : ∀ c ∈ s, isBlank c = true) :
    ∀ c ∈ squeeze s, isBlank c = true := by
  intro c hc
  by_contra hword
  rw [Bool.not_eq_true] at hword
  exact Bool.false_ne_true (hword.symm.trans (hs c ((mem_squeeze hword).1 hc)))

/-- What is not blank at the front of a text stands there before blank runs are squeezed. -/
theorem exists_of_squeeze_eq (hc : isBlank c = false) (h : squeeze s = c :: t) :
    ∃ u, s = c :: u ∧ squeeze u = t := by
  induction s with
  | nil => cases h
  | cons d s ih =>
    cases hd : isBlank d with
    | false =>
      rw [squeeze_word hd] at h
      obtain ⟨rfl, rfl⟩ := List.cons.inj h
      exact ⟨s, rfl, rfl⟩
    | true =>
      rw [squeeze_blank hd] at h
      split at h
      · rename_i hstarts
        obtain ⟨u, rfl, -⟩ := ih h
        exact absurd (hc.symm.trans hstarts) Bool.false_ne_true
      · obtain ⟨rfl, -⟩ := List.cons.inj h
        cases hc

theorem head?_squeeze (hc : isBlank c = false) :
    (squeeze s).head? = some c ↔ s.head? = some c := by
  rw [List.head?_eq_some_iff, List.head?_eq_some_iff]
  constructor
  · rintro ⟨t, ht⟩
    obtain ⟨u, rfl, -⟩ := exists_of_squeeze_eq hc ht
    exact ⟨u, rfl⟩
  · rintro ⟨t, rfl⟩
    exact ⟨squeeze t, squeeze_word hc t⟩

@[simp] theorem squeeze_eq_nil : squeeze s = [] ↔ s = [] := by
  refine ⟨fun h => ?_, fun h => by rw [h, squeeze_nil]⟩
  induction s with
  | nil => rfl
  | cons d s ih =>
    cases hd : isBlank d with
    | false =>
      rw [squeeze_word hd] at h
      cases h
    | true =>
      rw [squeeze_blank hd] at h
      split at h
      · rename_i hstarts
        rw [ih h] at hstarts
        cases hstarts
      · cases h

/-! ### Trimming and collapsing -/

theorem trimEnd_append_blanks (s : List Char) (ht : ∀ c ∈ t, isBlank c = true) :
    trimEnd (s ++ t) = trimEnd s := by
  rw [trimEnd, List.reverse_append,
    List.dropWhile_append_of_pos fun c hc => ht c (List.mem_reverse.1 hc), trimEnd]

theorem trimStart_squeeze (s : List Char) : trimStart (squeeze s) = squeeze (trimStart s) := by
  induction s with
  | nil => rfl
  | cons c s ih =>
    cases hc : isBlank c with
    | false =>
      rw [squeeze_word hc, trimStart_cons_word hc, trimStart_cons_word hc, squeeze_word hc]
    | true =>
      rw [squeeze_blank hc, trimStart_cons_blank hc, ← ih]
      split
      · rfl
      · exact trimStart_cons_blank rfl _

theorem trimEnd_squeeze (s : List Char) : trimEnd (squeeze s) = squeeze (trimEnd s) := by
  obtain ⟨blanks, hs, hblanks⟩ := exists_trimEnd_append s
  rcases List.eq_nil_or_concat' (trimEnd s) with hnil | ⟨u, c, hlast⟩
  · rw [hnil, List.nil_append] at hs
    rw [hnil, squeeze_nil, hs]
    exact trimEnd_append_blanks [] (isBlank_of_mem_squeeze hblanks)
  · have hc : isBlank c = false := by
      refine isBlank_of_mem_getLast?_trimEnd (s := s) ?_
      rw [hlast, List.getLast?_concat]
    have hsqueeze : squeeze s = squeeze u ++ [c] ++ squeeze blanks := by
      conv_lhs => rw [hs, hlast]
      rw [List.append_assoc, List.singleton_append, squeeze_append_word hc, List.append_assoc,
        List.singleton_append]
    rw [hsqueeze, trimEnd_append_blanks _ (isBlank_of_mem_squeeze hblanks), hlast,
      squeeze_append_word hc, trimEnd_concat_word _ hc, squeeze_nil]

/-- It does not matter whether a text is trimmed before or after. -/
theorem trim_squeeze (s : List Char) : trim (squeeze s) = squeeze (trim s) := by
  rw [trim, trimStart_squeeze, trimEnd_squeeze, trim]

theorem words_eq_nil : words s = [] ↔ trim s = [] := by
  induction s with
  | nil => exact ⟨fun _ => rfl, fun _ => rfl⟩
  | cons c s ih =>
    cases hc : isBlank c with
    | true => rw [words, if_pos hc, trim_cons_blank hc, ih]
    | false =>
      rw [trim_cons_word hc, words, if_neg (by simp [hc])]
      constructor
      · intro h
        split at h
        · split at h <;> cases h
        · cases h
      · intro h
        cases h

theorem squeeze_of_startsBlank (hs : startsBlank s = true) :
    squeeze s = ' ' :: squeeze (trimStart s) := by
  induction s with
  | nil => cases hs
  | cons c s ih =>
    rw [squeeze_blank hs, trimStart_cons_blank hs]
    split
    · exact ih ‹_›
    · rename_i hstarts
      rw [trimStart_of_head?]
      intro d hd
      obtain ⟨u, rfl⟩ := List.head?_eq_some_iff.1 hd
      simpa [startsBlank] using hstarts

/-- What is left behind a word where a text is trimmed: nothing, or a space and what comes after the
blanks. -/
theorem squeeze_trimEnd (hs : startsWord s = false) :
    squeeze (trimEnd s) = if trim s = [] then [] else ' ' :: squeeze (trim s) := by
  cases s with
  | nil => rfl
  | cons c s =>
    have hblank : startsBlank (c :: s) = true := by
      simpa [startsWord, startsBlank] using hs
    rw [← trimEnd_squeeze, squeeze_of_startsBlank hblank, trim]
    rcases hstart : trimStart (c :: s) with _ | ⟨d, u⟩
    · rfl
    · have hd := isBlank_of_trimStart hstart
      have hword (v : List Char) : trimEnd (d :: v) = d :: trimEnd v :=
        trimEnd_append (s := [d]) rfl hd v
      have hspace (v : List Char) : trimEnd (' ' :: d :: v) = ' ' :: d :: trimEnd v :=
        trimEnd_append (s := [' ', d]) rfl hd v
      rw [if_neg (by rw [hword]; exact List.cons_ne_nil _ _), ← trimEnd_squeeze, squeeze_word hd,
        hword, hspace]

/-- Collapsing is trimming, and writing each blank run as one space. -/
theorem collapse_eq (s : List Char) : collapse s = squeeze (trim s) := by
  induction s with
  | nil => rfl
  | cons c s ih =>
    cases hc : isBlank c with
    | true => rw [trim_cons_blank hc, ← ih, collapse, words, if_pos hc, collapse]
    | false =>
      rw [trim_cons_word hc, squeeze_word hc, collapse, words, if_neg (by simp [hc])]
      cases hstarts : startsWord s with
      | true =>
        have htrim : trimEnd s = trim s := by
          rw [trim, trimStart_of_head?]
          intro d hd
          obtain ⟨u, rfl⟩ := List.head?_eq_some_iff.1 hd
          simpa [startsWord] using hstarts
        rw [htrim, ← ih, if_pos rfl, collapse]
        rcases words s with _ | ⟨w, _ | ⟨v, ws⟩⟩ <;> simp [List.intercalate]
      | false =>
        rw [squeeze_trimEnd hstarts, ← ih, if_neg Bool.false_ne_true, collapse]
        rcases hwords : words s with _ | ⟨w, ws⟩
        · rw [if_pos (words_eq_nil.1 hwords)]
          rfl
        · rw [if_neg fun h => List.cons_ne_nil w ws (hwords.symm.trans (words_eq_nil.2 h))]
          simp [List.intercalate]

/-! ### Cuts -/

theorem cutAtChar?_of_not_mem (h : c ∉ s) : cutAtChar? c s = none := by
  rcases cutAtChar?_eq c s with ⟨hnone, -⟩ | ⟨tail, hsome⟩
  · exact hnone
  · have hmem : c ∈ s := by
      rw [eq_of_cutAt? hsome]
      simp
    exact absurd hmem h

/-- Cutting at a character that is not blank. -/
theorem cutAtChar?_squeeze (hc : isBlank c = false) (s : List Char) :
    cutAtChar? c (squeeze s) = (cutAtChar? c s).map (Prod.map squeeze squeeze) := by
  by_cases hmem : c ∈ s
  · obtain ⟨u, t, rfl, hu⟩ := List.eq_append_cons_of_mem hmem
    rw [squeeze_append_word hc, cutAtChar?_append hu,
      cutAtChar?_append (mt (mem_squeeze hc).1 hu)]
    rfl
  · rw [cutAtChar?_of_not_mem hmem, cutAtChar?_of_not_mem (mt (mem_squeeze hc).1 hmem)]
    rfl

/-- Cutting at every occurrence of a character that is not blank. -/
theorem splitOn_squeeze (hc : isBlank c = false) (s : List Char) :
    (squeeze s).splitOn c = (s.splitOn c).map squeeze := by
  induction hn : s.length using Nat.strong_induction_on generalizing s with
  | _ n ih =>
    subst hn
    by_cases hmem : c ∈ s
    · obtain ⟨u, t, rfl, hu⟩ := List.eq_append_cons_of_mem hmem
      have hlength : t.length < (u ++ c :: t).length := by
        simp only [List.length_append, List.length_cons]
        omega
      rw [squeeze_append_word hc, List.splitOn_append_cons_self_of_not_mem hu,
        List.splitOn_append_cons_self_of_not_mem (mt (mem_squeeze hc).1 hu),
        ih t.length hlength t rfl, List.map_cons]
    · rw [List.splitOn_eq_singleton hmem,
        List.splitOn_eq_singleton (mt (mem_squeeze hc).1 hmem), List.map_singleton]

end Text

namespace Marker

variable {k : Marker} {s rest body after : List Char} {c : Char}

/-! ### Markers -/

theorem startsBlank_of_closing? (h : closing? s = some (body, after)) :
    startsBlank body = startsBlank s := by
  fun_induction closing? s generalizing body with
  | case1 => cases h
  | case2 s =>
    obtain ⟨r, -, he⟩ := Option.map_eq_some_iff.1 h
    rw [← (Prod.mk.inj he).1]
    rfl
  | case3 s =>
    rw [← (Prod.mk.inj (Option.some.inj h)).1]
    rfl
  | case4 c s =>
    obtain ⟨r, -, he⟩ := Option.map_eq_some_iff.1 h
    rw [← (Prod.mk.inj he).1]
    rfl

/-- A marker is closed by the same brace. -/
theorem closing?_squeeze (s : List Char) :
    closing? (squeeze s) = (closing? s).map (Prod.map squeeze squeeze) := by
  fun_induction closing? s with
  | case1 => rfl
  | case2 s ih =>
    rw [squeeze_word rfl, squeeze_word rfl, closing?, ih, Option.map_map, Option.map_map]
    refine Option.map_congr fun r _ => ?_
    exact Prod.ext (squeeze_word (c := '}') rfl r.1).symm rfl
  | case3 s =>
    rw [squeeze_word rfl]
    rfl
  | case4 c s hescape hc ih =>
    cases hblank : isBlank c with
    | false =>
      have hnext : c = '\\' → (squeeze s).head? ≠ some '}' := by
        rintro rfl hhead
        obtain ⟨u, rfl⟩ := List.head?_eq_some_iff.1 ((head?_squeeze rfl).1 hhead)
        exact hescape u rfl rfl
      rw [squeeze_word hblank, closing?_cons hc hnext, ih, Option.map_map, Option.map_map]
      refine Option.map_congr fun r _ => ?_
      exact Prod.ext (squeeze_word hblank r.1).symm rfl
    | true =>
      have hbody (r : List Char × List Char) (hr : closing? s = some r) :
          squeeze (c :: r.1) = if startsBlank s then squeeze r.1 else ' ' :: squeeze r.1 := by
        rw [squeeze_blank hblank, startsBlank_of_closing? hr]
      rw [squeeze_blank hblank, Option.map_map]
      split
      · rename_i hstarts
        rw [ih]
        refine Option.map_congr fun r hr => Prod.ext ?_ rfl
        exact ((hbody r hr).trans (if_pos hstarts)).symm
      · rename_i hstarts
        rw [closing?_cons (by decide) fun h => absurd h (by decide), ih, Option.map_map]
        refine Option.map_congr fun r hr => Prod.ext ?_ rfl
        exact ((hbody r hr).trans (if_neg hstarts)).symm

theorem isBlank_brace : isBlank '{' = false :=
  rfl

/-- A character that stands for itself does so before and after. -/
theorem front_squeeze (h : front k (c :: rest) = .plain c rest) :
    front k (c :: squeeze rest) = .plain c (squeeze rest) := by
  obtain ⟨hescaped, hopened⟩ := front_eq_plain_iff.1 h
  refine front_eq_plain_iff.2 ⟨fun hback r hr => ?_, fun hmark r hr => ?_⟩
  · obtain ⟨u, rfl, hu⟩ := exists_of_squeeze_eq (isBlank_mark k) hr
    obtain ⟨v, rfl, -⟩ := exists_of_squeeze_eq isBlank_brace hu
    exact hescaped hback v rfl
  · obtain ⟨u, rfl, -⟩ := exists_of_squeeze_eq isBlank_brace hr
    exact hopened hmark u rfl

/-- Pieces that begin with a blank. -/
def beginsBlank : List Piece → Bool
  | .char c :: _ => isBlank c
  | _ => false

/-- Pieces with every blank run written as one space, also within the bodies of markers. -/
def squeezePieces : List Piece → List Piece
  | [] => []
  | .char c :: rest =>
    if isBlank c then
      if beginsBlank rest then squeezePieces rest else .char ' ' :: squeezePieces rest
    else .char c :: squeezePieces rest
  | .token body :: rest => .token (squeeze body) :: squeezePieces rest

theorem squeezePieces_word (hc : isBlank c = false) (ps : List Piece) :
    squeezePieces (.char c :: ps) = .char c :: squeezePieces ps := by
  rw [squeezePieces, if_neg (by simp [hc])]

theorem squeezePieces_blank (hc : isBlank c = true) (ps : List Piece) :
    squeezePieces (.char c :: ps) =
      if beginsBlank ps then squeezePieces ps else .char ' ' :: squeezePieces ps := by
  rw [squeezePieces, if_pos hc]

theorem beginsBlank_pieces (k : Marker) (s : List Char) :
    beginsBlank (pieces k s) = startsBlank s := by
  cases s using cut_induction k with
  | done => rw [pieces_nil]; rfl
  | escaped rest => rw [pieces_escaped]; exact isBlank_mark k
  | plain c rest hf => rw [pieces_plain hf]; rfl
  | unclosed rest hc => rw [pieces_unclosed k hc]; rfl
  | marker rest body after hc => rw [pieces_marker k hc]; exact (isBlank_mark k).symm

theorem squeezePieces_chars (s : List Char) :
    squeezePieces (s.map .char) = (squeeze s).map .char := by
  induction s with
  | nil => rfl
  | cons c s ih =>
    have hbegins : beginsBlank (s.map .char) = startsBlank s := by
      cases s <;> rfl
    cases hc : isBlank c with
    | false => rw [List.map_cons, squeezePieces_word hc, squeeze_word hc, ih, List.map_cons]
    | true =>
      rw [List.map_cons, squeezePieces_blank hc, squeeze_blank hc, hbegins, ih]
      split <;> rfl

/-- A text is cut at its markers alike, whether blank runs are squeezed before or after. -/
theorem pieces_squeeze (k : Marker) (s : List Char) :
    pieces k (squeeze s) = squeezePieces (pieces k s) := by
  have hmark := isBlank_mark k
  induction s using cut_induction k with
  | done => rw [squeeze_nil, pieces_nil, squeezePieces]
  | escaped rest ih =>
    rw [squeeze_word rfl, squeeze_word hmark, squeeze_word isBlank_brace, pieces_escaped,
      pieces_escaped, squeezePieces_word hmark, squeezePieces_word isBlank_brace, ih]
  | plain c rest hf ih =>
    rw [pieces_plain hf]
    cases hc : isBlank c with
    | false =>
      rw [squeeze_word hc, pieces_plain (front_squeeze hf), squeezePieces_word hc, ih]
    | true =>
      have hspace : front k (' ' :: squeeze rest) = .plain ' ' (squeeze rest) :=
        front_eq_plain_iff.2 ⟨fun h => absurd h (by decide), fun h => by cases k <;> cases h⟩
      rw [squeeze_blank hc, squeezePieces_blank hc, beginsBlank_pieces]
      split
      · exact ih
      · rw [pieces_plain hspace, ih]
  | unclosed rest hc =>
    have hnone : closing? (squeeze rest) = none := by
      rw [closing?_squeeze, hc]
      rfl
    rw [pieces_unclosed k hc, squeezePieces_chars, squeeze_word hmark, squeeze_word isBlank_brace,
      pieces_unclosed k hnone]
  | marker rest body after hc ih =>
    have hsome : closing? (squeeze rest) = some (squeeze body, squeeze after) := by
      rw [closing?_squeeze, hc]
      rfl
    rw [pieces_marker k hc, squeeze_word hmark, squeeze_word isBlank_brace,
      pieces_marker k hsome, squeezePieces, ih]

/-- The bodies of a text's markers. -/
theorem bodies_squeeze (k : Marker) (s : String) :
    k.bodies (mapChars squeeze s) = (k.bodies s).map (mapChars squeeze) := by
  rw [bodies, toList_mapChars, pieces_squeeze, bodies]
  induction pieces k s.toList with
  | nil => rfl
  | cons p ps ih =>
    cases p with
    | token body =>
      rw [squeezePieces, List.filterMap_cons, List.filterMap_cons]
      simp only [List.map_cons, ih, mapChars, String.toList_ofList]
    | char c =>
      rw [List.filterMap_cons]
      simp only [← ih]
      cases hc : isBlank c with
      | false => rw [squeezePieces_word hc, List.filterMap_cons]
      | true =>
        rw [squeezePieces_blank hc]
        split
        · rfl
        · rw [List.filterMap_cons]

/-! ### Placeholders -/

/-- A placeholder holds no blank. -/
theorem isBlank_of_mem_write (style : PlaceholderStyle) (n : Nat) :
    ∀ c ∈ (style.write n).toList, isBlank c = false := by
  intro c hc
  cases style with
  | question =>
    obtain rfl : c = '?' := List.mem_singleton.1 (by simpa [PlaceholderStyle.write] using hc)
    rfl
  | dollar =>
    rw [PlaceholderStyle.write, String.toList_append, Nat.toString_eq_repr,
      Nat.toList_repr] at hc
    rcases List.mem_cons.1 hc with rfl | hc
    · rfl
    · have hdigit := Nat.isDigit_of_mem_toDigits (by decide) (by decide) hc
      exact isBlank_of_isAlphanum (by rw [Char.isAlphanum, hdigit, Bool.or_true])

theorem write_ne_nil (style : PlaceholderStyle) (n : Nat) : (style.write n).toList ≠ [] := by
  cases style <;> simp [PlaceholderStyle.write]

theorem startsBlank_number (style : PlaceholderStyle) (n : Nat) (ps : List Piece) :
    startsBlank (number style n ps) = beginsBlank ps := by
  rcases ps with _ | ⟨c | body, ps⟩
  · rfl
  · rfl
  · rw [number]
    obtain ⟨c, w, hw⟩ := List.exists_cons_of_ne_nil (write_ne_nil style (n + 1))
    have hc := isBlank_of_mem_write style (n + 1) c (by simp [hw])
    rw [hw]
    exact hc

/-- Placeholders are written alike, whether blank runs are squeezed before or after. -/
theorem number_squeezePieces (style : PlaceholderStyle) (n : Nat) (ps : List Piece) :
    number style n (squeezePieces ps) = squeeze (number style n ps) := by
  induction ps generalizing n with
  | nil => rfl
  | cons p ps ih =>
    cases p with
    | token body =>
      rw [squeezePieces, number, number, ih,
        squeeze_append_of_forall (isBlank_of_mem_write style (n + 1))]
    | char c =>
      rw [number]
      cases hc : isBlank c with
      | false => rw [squeezePieces_word hc, number, squeeze_word hc, ih]
      | true =>
        rw [squeezePieces_blank hc, squeeze_blank hc, startsBlank_number, ← ih]
        split <;> rfl

theorem exists_number_append (style : PlaceholderStyle) (n : Nat) (ps qs : List Piece) :
    ∃ m, number style n (ps ++ qs) = number style n ps ++ number style m qs := by
  induction ps generalizing n with
  | nil => exact ⟨n, rfl⟩
  | cons p ps ih =>
    cases p with
    | char c =>
      obtain ⟨m, hm⟩ := ih n
      exact ⟨m, congrArg (c :: ·) hm⟩
    | token body =>
      obtain ⟨m, hm⟩ := ih (n + 1)
      exact ⟨m, by rw [List.cons_append, number, number, hm, List.append_assoc]⟩

theorem eq_nil_of_pieces (h : pieces k s = []) : s = [] := by
  cases s using cut_induction k with
  | done => rfl
  | escaped rest => rw [pieces_escaped] at h; cases h
  | plain c rest hf => rw [pieces_plain hf] at h; cases h
  | unclosed rest hc => rw [pieces_unclosed k hc] at h; cases h
  | marker rest body after hc => rw [pieces_marker k hc] at h; cases h

/-- A text whose last piece is a character ends with this character. -/
theorem getLast?_of_pieces (h : (pieces k s).getLast? = some (.char c)) :
    s.getLast? = some c := by
  have hcons (d : Char) (t : List Char)
      (ih : (pieces k t).getLast? = some (.char c) → t.getLast? = some c)
      (h : (.char d :: pieces k t).getLast? = some (.char c)) : (d :: t).getLast? = some c := by
    rw [List.getLast?_cons] at h ⊢
    cases hlast : (pieces k t).getLast? with
    | none =>
      obtain rfl := eq_nil_of_pieces (List.getLast?_eq_none_iff.1 hlast)
      rw [hlast] at h
      rw [Piece.char.inj (Option.some.inj h)]
      rfl
    | some p =>
      rw [hlast] at h
      rw [ih (hlast.trans h)]
      rfl
  induction s using cut_induction k with
  | done =>
    rw [pieces_nil] at h
    cases h
  | escaped rest ih =>
    rw [pieces_escaped, List.getLast?_cons_cons] at h
    rw [List.getLast?_cons_cons, List.getLast?_cons_cons]
    exact hcons '{' rest ih h
  | plain d rest hf ih =>
    rw [pieces_plain hf] at h
    exact hcons d rest ih h
  | unclosed rest hc =>
    rw [pieces_unclosed k hc, List.getLast?_map] at h
    obtain ⟨d, hd, he⟩ := Option.map_eq_some_iff.1 h
    rw [hd, Piece.char.inj he]
  | marker rest body after hc ih =>
    rw [pieces_marker k hc, List.getLast?_cons] at h
    obtain ⟨before, rfl⟩ := exists_of_closing? hc
    have hafter : after.getLast? = some c := by
      cases hlast : (pieces k after).getLast? with
      | none =>
        rw [hlast] at h
        cases h
      | some p =>
        rw [hlast] at h
        exact ih (hlast.trans h)
    have hsplit : k.mark :: '{' :: (before ++ '}' :: after) =
        (k.mark :: '{' :: before ++ ['}']) ++ after := by
      simp
    rw [hsplit, List.getLast?_append, hafter, Option.some_or]

/-- A text without blanks at its ends has none with placeholders in the place of its markers. -/
theorem trim_number (style : PlaceholderStyle) (n : Nat) (hs : trim s = s) :
    trim (number style n (pieces k s)) = number style n (pieces k s) := by
  refine trim_of_ends (fun c hc => ?_) fun c hc => ?_
  · obtain ⟨t, ht⟩ := List.head?_eq_some_iff.1 hc
    have hstarts : startsBlank s = isBlank c := by
      rw [← beginsBlank_pieces k, ← startsBlank_number style n, ht, startsBlank]
    rw [← hstarts, ← hs, ← trimStart_trim]
    cases hstart : trimStart (trim s) with
    | nil => rfl
    | cons d u => exact isBlank_of_trimStart hstart
  · rcases List.eq_nil_or_concat' (pieces k s) with hnil | ⟨ps, p, hlast⟩
    · rw [hnil] at hc
      cases hc
    · obtain ⟨m, hm⟩ := exists_number_append style n ps [p]
      rw [hlast, hm] at hc
      cases p with
      | char d =>
        have hd : s.getLast? = some d :=
          getLast?_of_pieces (k := k) (by rw [hlast, List.getLast?_concat])
        have hdc : d = c := by
          simpa [number] using hc
        rw [← hdc]
        exact isBlank_of_mem_getLast?_trimEnd (s := trimStart s) (by rw [← trim, hs, hd])
      | token body =>
        have hend : (number style m [.token body]).getLast? =
            (style.write (m + 1)).toList.getLast? := by
          rw [number, number, List.append_nil]
        rw [List.getLast?_append, hend] at hc
        cases hwrite : (style.write (m + 1)).toList.getLast? with
        | none => exact absurd (List.getLast?_eq_none_iff.1 hwrite) (write_ne_nil style (m + 1))
        | some d =>
          rw [hwrite, Option.some_or] at hc
          rw [← Option.some.inj hc]
          exact isBlank_of_mem_write style (m + 1) d (List.mem_of_getLast? hwrite)

end Marker

end SqlTemplate
