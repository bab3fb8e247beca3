import SqlTemplate.Proofs.Cuts
import SqlTemplate.Proofs.MarkerWriting

/-!
# Scanning with cursors

Markers can also be replaced in one walk over the bytes of a text, which searches for the next mark
from a cursor and copies what stands between the cursor and the mark. A slice of a text exists only
between two offsets in order that lie within the text and on the boundaries of characters, and a
walk that asks for any other slice would have no result. It asks for none: the cursor stands behind
a whole part of the text that does not end in a backslash, so that a backslash before the next mark
stands behind the cursor.

## Main definitions

* `Text.slice?` : the text between two byte offsets.
* `Marker.scan` : the walk over a text.

## Main results

* `Text.probe_append` : the next mark behind a cursor.
* `Marker.scan_eq` : the walk has a result, and it is the text with its markers replaced.
* `Marker.scanner_undoes_escaping` : what is written from literals and bodies is read as these.
-/

namespace SqlTemplate

namespace Text

/-! ### Slices -/

/-- The text between two byte offsets. -/
def slice? (start stop : Nat) (s : List Char) : Option (List Char) :=
  if start ≤ stop then
    (cutAtByte? stop s).bind fun cut => (cutAtByte? start cut.1).map fun cut => cut.2
  else none

/-- The text from a byte offset on. -/
def sliceFrom? (start : Nat) (s : List Char) : Option (List Char) :=
  (cutAtByte? start s).map fun cut => cut.2

/-- The byte offset of the first occurrence of a mark. -/
def find? (mark s : List Char) : Option Nat :=
  (cutAt? mark s).map fun cut => byteLength cut.1

theorem sliceFrom?_append (s t : List Char) : sliceFrom? (byteLength s) (s ++ t) = some t := by
  rw [sliceFrom?, cutAtByte?_append, Option.map_some]

theorem slice?_append (s t u : List Char) :
    slice? (byteLength s) (byteLength s + byteLength t) (s ++ (t ++ u)) = some t := by
  have hcut := cutAtByte?_append (s ++ t) u
  rw [List.append_assoc, byteLength_append] at hcut
  rw [slice?, if_pos (Nat.le_add_right ..), hcut, Option.bind_some, cutAtByte?_append,
    Option.map_some]

/-! ### The next mark -/

/-- What a search from a cursor comes upon: no mark, a mark behind a backslash, or one that is not
escaped, with the text that stands before it. -/
inductive Probe where
  /-- No mark, in the text that is left. -/
  | absent (tail : List Char)
  /-- A mark behind a backslash, and the offset of what comes after the mark. -/
  | escaped (part : List Char) (next : Nat)
  /-- A mark at an offset. -/
  | found (part : List Char) (start : Nat)

/-- The search for a mark from a cursor on. -/
def probe (mark s : List Char) (cursor : Nat) : Option Probe := do
  let tail ← sliceFrom? cursor s
  match find? mark tail with
  | none => return .absent tail
  | some n =>
    let start := cursor + n
    let front ← slice? 0 start s
    if 0 < start ∧ front.getLast? = some '\\' then
      let part ← slice? cursor (start - 1) s
      return .escaped part (start + byteLength mark)
    else
      let part ← slice? cursor start s
      return .found part start

theorem byteLength_of_sliceFrom? {n : Nat} {s t : List Char} (h : sliceFrom? n s = some t) :
    byteLength s = n + byteLength t := by
  obtain ⟨cut, hcut, rfl⟩ := Option.map_eq_some_iff.1 h
  obtain ⟨hs, hn⟩ := eq_of_cutAtByte? hcut
  rw [hs, byteLength_append, hn]

theorem le_of_find? {mark s : List Char} {n : Nat} (h : find? mark s = some n) :
    n + byteLength mark ≤ byteLength s := by
  obtain ⟨cut, hcut, rfl⟩ := Option.map_eq_some_iff.1 h
  rw [eq_of_cutAt? hcut, byteLength_append, byteLength_append]
  omega

/-- The mark that is come upon lies behind the cursor and within the text. -/
theorem bounds_of_probe (mark s : List Char) (cursor : Nat) :
    match probe mark s cursor with
    | some (.escaped _ next) => cursor + byteLength mark ≤ next ∧ next ≤ byteLength s
    | some (.found _ start) => cursor ≤ start ∧ start + byteLength mark ≤ byteLength s
    | _ => True := by
  rw [probe]
  rcases htail : sliceFrom? cursor s with _ | tail
  · trivial
  have hlength := byteLength_of_sliceFrom? htail
  rw [Option.bind_eq_bind, Option.bind_some]
  rcases hfind : find? mark tail with _ | n
  · trivial
  have hle := le_of_find? hfind
  dsimp only
  rcases slice? 0 (cursor + n) s with _ | front
  · trivial
  rw [Option.bind_some]
  split_ifs
  · rcases slice? cursor (cursor + n - 1) s with _ | part
    · trivial
    · exact ⟨by omega, by omega⟩
  · rcases slice? cursor (cursor + n) s with _ | part
    · trivial
    · exact ⟨by omega, by omega⟩

/-- A backslash at the end of two parts is one of the second, unless the first ends in one. -/
theorem getLast?_append_iff {front : List Char} (hfront : front.getLast? ≠ some '\\')
    (before : List Char) :
    (front ++ before).getLast? = some '\\' ↔ before.getLast? = some '\\' := by
  rw [List.getLast?_append]
  cases before.getLast? with
  | none => simpa using hfront
  | some c => rw [Option.some_or]

/-- Behind a part of the text that does not end in a backslash a search comes upon the first mark,
and upon a backslash before it that stands behind the cursor. -/
theorem probe_append (mark : List Char) {front : List Char} (hfront : front.getLast? ≠ some '\\')
    (s : List Char) :
    probe mark (front ++ s) (byteLength front) = some (match cutAt? mark s with
      | none => .absent s
      | some (before, _) =>
        if before.getLast? = some '\\' then
          .escaped before.dropLast (byteLength front + byteLength before + byteLength mark)
        else .found before (byteLength front + byteLength before)) := by
  rw [probe, sliceFrom?_append, Option.bind_eq_bind, Option.bind_some, find?]
  rcases hcut : cutAt? mark s with _ | ⟨before, after⟩
  · rfl
  have hs := eq_of_cutAt? hcut
  rw [List.append_assoc] at hs
  have hwhole : slice? 0 (byteLength front + byteLength before) (front ++ s) =
      some (front ++ before) := by
    have hslice := slice?_append [] (front ++ before) (mark ++ after)
    rwa [byteLength_append, List.nil_append, List.append_assoc, ← hs, byteLength, Nat.zero_add]
      at hslice
  dsimp only [Option.map_some]
  rw [hwhole, Option.bind_some]
  by_cases hescaped : before.getLast? = some '\\'
  · obtain ⟨part, rfl⟩ := List.getLast?_eq_some_iff.1 hescaped
    have hlength : byteLength (part ++ ['\\']) = byteLength part + 1 :=
      byteLength_append part ['\\']
    have hpart : slice? (byteLength front)
        (byteLength front + byteLength (part ++ ['\\']) - 1) (front ++ s) = some part := by
      have hslice := slice?_append front part ('\\' :: (mark ++ after))
      rw [hs, hlength, ← Nat.add_assoc, Nat.add_sub_cancel]
      simpa using hslice
    have hpos : 0 < byteLength front + byteLength (part ++ ['\\']) := by
      omega
    rw [if_pos ⟨hpos, (getLast?_append_iff hfront _).2 hescaped⟩, hpart, if_pos hescaped,
      List.dropLast_concat]
    rfl
  · have hpart : slice? (byteLength front) (byteLength front + byteLength before) (front ++ s) =
        some before := by
      rw [hs]
      exact slice?_append front before _
    rw [if_neg fun h => hescaped ((getLast?_append_iff hfront _).1 h.2), hpart, if_neg hescaped]
    rfl

end Text

open Text

namespace Marker

/-! ### The walk -/

/-- The characters that open a marker. -/
def opening (k : Marker) : List Char :=
  [k.mark, '{']

/-- The body of a marker from a cursor in the text behind its opening, added to what has been
gathered of it, and the offset behind its closing brace. The outer option is absent where a slice
is, the inner one where no brace closes the marker. -/
def closeFrom (s gathered : List Char) (cursor : Nat) : Option (Option (List Char × Nat)) :=
  have hbounds := bounds_of_probe ['}'] s cursor
  match h : probe ['}'] s cursor with
  | none => none
  | some (.absent _) => some none
  | some (.escaped part next) =>
    have : byteLength s - next < byteLength s - cursor := by
      rw [h] at hbounds
      obtain ⟨hnext, hle⟩ := hbounds
      rw [show byteLength ['}'] = 1 from rfl] at hnext
      omega
    closeFrom s (gathered ++ part ++ ['}']) next
  | some (.found part stop) => some (some (gathered ++ part, stop + byteLength ['}']))
termination_by byteLength s - cursor

/-- The walk over a text from a cursor, behind what has been written. -/
def scanFrom {m : Type → Type} [Monad m] (k : Marker) (fill : String → m String)
    (s written : List Char) (cursor : Nat) : m (Option (List Char)) :=
  have hbounds := bounds_of_probe k.opening s cursor
  have hopening : 0 < byteLength k.opening := by
    cases k <;> decide
  match h : probe k.opening s cursor with
  | none => pure none
  | some (.absent tail) => pure (some (written ++ tail))
  | some (.escaped part next) =>
    have : byteLength s - next < byteLength s - cursor := by
      rw [h] at hbounds
      obtain ⟨hnext, hle⟩ := hbounds
      omega
    scanFrom k fill s (written ++ part ++ k.opening) next
  | some (.found part start) =>
    match sliceFrom? (start + byteLength k.opening) s with
    | none => pure none
    | some inner =>
      match closeFrom inner [] 0 with
      | none => pure none
      | some none => pure ((sliceFrom? start s).map fun tail => written ++ part ++ tail)
      | some (some (body, consumed)) => do
        have : byteLength s - (start + byteLength k.opening + consumed) <
            byteLength s - cursor := by
          rw [h] at hbounds
          obtain ⟨hstart, hle⟩ := hbounds
          omega
        let text ← fill (.ofList body)
        scanFrom k fill s (written ++ part ++ text.toList)
          (start + byteLength k.opening + consumed)
termination_by byteLength s - cursor

/-- The walk over a whole text. -/
def scan {m : Type → Type} [Monad m] (k : Marker) (fill : String → m String) (s : String) :
    m (Option String) :=
  (Option.map String.ofList) <$> scanFrom k fill s.toList [] 0

/-! ### What is come upon -/

variable {k : Marker} {s before after : List Char}

/-- The body of a marker by the first closing brace: with a backslash before it the brace is kept,
and the body goes on behind it. -/
theorem closing?_of_cutAt? (h : cutAt? ['}'] s = some (before, after)) :
    closing? s = if before.getLast? = some '\\' then
        (closing? after).map fun r => (before.dropLast ++ '}' :: r.1, r.2)
      else some (before, after) := by
  induction s generalizing before with
  | nil => cases h
  | cons c s ih =>
    rcases cutAt?_cons_eq_some h with ⟨rfl, hs⟩ | ⟨hne, front, rfl, hcut⟩
    · obtain ⟨rfl, rfl⟩ := List.cons.inj hs
      rfl
    have hc : c ≠ '}' := by
      rintro rfl
      exact hne s rfl
    have hrest := ih hcut
    cases front with
    | nil =>
      have hs : s = '}' :: after := eq_of_cutAt? hcut
      subst hs
      by_cases hbackslash : c = '\\'
      · subst hbackslash
        rw [closing?]
        rfl
      · rw [closing?_cons hc fun h => absurd h hbackslash, hrest]
        simp [hbackslash]
    | cons d front =>
      have hnext : c = '\\' → s.head? ≠ some '}' := by
        rintro - hhead
        obtain ⟨t, rfl⟩ := List.head?_eq_some_iff.1 hhead
        have hfront : cutAt? ['}'] ('}' :: t) = some ([], t) := rfl
        rw [hfront] at hcut
        cases hcut
      rw [closing?_cons hc hnext, hrest, List.getLast?_cons_cons]
      split
      · simp [Function.comp_def]
      · rfl

theorem closing?_eq_none (h : cutAt? ['}'] s = none) : closing? s = none := by
  by_contra hsome
  obtain ⟨⟨body, after⟩, hclosing⟩ := Option.ne_none_iff_exists'.1 hsome
  obtain ⟨before, rfl⟩ := exists_of_closing? hclosing
  exact cutAt?_ne_none ['}'] before after h

/-- Two characters that do not begin a mark or escape one. -/
theorem front_eq_plain {c : Char} (hmark : ∀ r, c :: s ≠ k.opening ++ r)
    (hescape : c = '\\' → ∀ r, s ≠ k.opening ++ r) : front k (c :: s) = .plain c s := by
  refine front_eq_plain_iff.2 ⟨hescape, ?_⟩
  rintro rfl r rfl
  exact hmark r rfl

theorem pieces_eq_map (h : cutAt? k.opening s = none) : pieces k s = s.map .char := by
  induction s with
  | nil => exact pieces_nil k
  | cons c s ih =>
    have hmark : ∀ r, c :: s ≠ k.opening ++ r := fun r hr => by
      rw [hr] at h
      exact cutAt?_ne_none k.opening [] r h
    have hescape : ∀ r, s ≠ k.opening ++ r := by
      rintro r rfl
      exact cutAt?_ne_none k.opening [c] r h
    have hrest : cutAt? k.opening s = none := by
      by_contra hsome
      obtain ⟨⟨before, after⟩, hcut⟩ := Option.ne_none_iff_exists'.1 hsome
      refine cutAt?_ne_none k.opening (c :: before) after ?_
      rwa [List.cons_append, ← List.append_assoc, ← eq_of_cutAt? hcut]
    rw [pieces_plain (front_eq_plain hmark fun _ => hescape), ih hrest, List.map_cons]

/-- The pieces of a text by the first opening: with a backslash before it the opening is text, and
otherwise it opens a marker, if that is closed. -/
theorem pieces_of_cutAt? (h : cutAt? k.opening s = some (before, after)) :
    pieces k s = if before.getLast? = some '\\' then
        (before.dropLast ++ k.opening).map .char ++ pieces k after
      else match closing? after with
        | none => s.map .char
        | some (body, rest) => before.map .char ++ .token body :: pieces k rest := by
  induction s generalizing before with
  | nil => cases h
  | cons c s ih =>
    rcases cutAt?_cons_eq_some h with ⟨rfl, hs⟩ | ⟨hmark, front, rfl, hcut⟩
    · rw [hs]
      exact pieces_eq k (k.mark :: '{' :: after) |>.trans (by
        rw [front_eq_opened]
        rfl)
    cases front with
    | nil =>
      have hs : s = k.opening ++ after := eq_of_cutAt? hcut
      by_cases hbackslash : c = '\\'
      · subst hs hbackslash
        exact pieces_escaped k after
      · have hrest := ih hcut
        rw [pieces_plain (front_eq_plain hmark fun h => absurd h hbackslash), hrest]
        cases closing? after <;> simp [hbackslash]
    | cons d front =>
      have hescape : ∀ r, s ≠ k.opening ++ r := by
        rintro r rfl
        have hfront : cutAt? k.opening (k.opening ++ r) = some ([], r) := by
          cases k <;> rfl
        rw [hfront] at hcut
        cases hcut
      rw [pieces_plain (front_eq_plain hmark fun _ => hescape), ih hcut, List.getLast?_cons_cons]
      split
      · rfl
      · cases closing? after <;> rfl

/-! ### The walk to a closing brace -/

section Closing

variable {front : List Char} (hfront : front.getLast? ≠ some '\\') (gathered : List Char)
include hfront

theorem closeFrom_of_absent (hcut : cutAt? ['}'] s = none) :
    closeFrom (front ++ s) gathered (byteLength front) = some none := by
  have hprobe := probe_append ['}'] hfront s
  rw [closeFrom]
  split <;> simp_all

theorem closeFrom_of_escaped (hcut : cutAt? ['}'] s = some (before, after))
    (hescaped : before.getLast? = some '\\') :
    closeFrom (front ++ s) gathered (byteLength front) =
      closeFrom (front ++ s) (gathered ++ before.dropLast ++ ['}'])
        (byteLength (front ++ before ++ ['}'])) := by
  have hprobe := probe_append ['}'] hfront s
  rw [closeFrom]
  split <;> simp_all [byteLength_append, Nat.add_assoc]

theorem closeFrom_of_found (hcut : cutAt? ['}'] s = some (before, after))
    (hescaped : before.getLast? ≠ some '\\') :
    closeFrom (front ++ s) gathered (byteLength front) =
      some (some (gathered ++ before, byteLength (front ++ before ++ ['}']))) := by
  have hprobe := probe_append ['}'] hfront s
  rw [closeFrom]
  split <;> simp_all [byteLength_append, Nat.add_assoc]

end Closing

/-- A body is gathered up to its closing brace, and the offset behind that is found. -/
theorem closeFrom_append {front : List Char} (hfront : front.getLast? ≠ some '\\')
    (s gathered : List Char) :
    closeFrom (front ++ s) gathered (byteLength front) = some ((closing? s).map fun r =>
      (gathered ++ r.1, byteLength (front ++ s) - byteLength r.2)) := by
  induction hn : s.length using Nat.strong_induction_on generalizing front s gathered with
  | _ n ih =>
    subst hn
    cases hcut : cutAt? ['}'] s with
    | none =>
      rw [closeFrom_of_absent hfront gathered hcut, closing?_eq_none hcut]
      rfl
    | some cut =>
      obtain ⟨before, after⟩ := cut
      have htext : front ++ s = front ++ before ++ ['}'] ++ after := by
        rw [eq_of_cutAt? hcut]
        simp only [List.append_assoc]
      by_cases hescaped : before.getLast? = some '\\'
      · have hbrace : (front ++ before ++ ['}']).getLast? ≠ some '\\' := by
          simp
        have hrest := ih after.length (length_of_cutAt? hcut) hbrace after
          (gathered ++ before.dropLast ++ ['}']) rfl
        rw [closeFrom_of_escaped hfront gathered hcut hescaped, closing?_of_cutAt? hcut,
          if_pos hescaped, htext, hrest]
        cases closing? after <;> simp
      · rw [closeFrom_of_found hfront gathered hcut hescaped, closing?_of_cutAt? hcut,
          if_neg hescaped, htext, Option.map_some, byteLength_append _ after, Nat.add_sub_cancel]

/-- The walk over the text behind an opening begins at its front. -/
theorem closeFrom_zero (s : List Char) : closeFrom s [] 0 = some ((closing? s).map fun r =>
    (r.1, byteLength s - byteLength r.2)) :=
  closeFrom_append (show ([] : List Char).getLast? ≠ some '\\' from nofun) s []

/-! ### The walk over a text -/

section Walk

/-- The texts from an opening on, and from behind it on. -/
theorem sliceFrom?_of_cutAt? (front : List Char)
    (hcut : cutAt? k.opening s = some (before, after)) :
    sliceFrom? (byteLength front + byteLength before) (front ++ s) = some (k.opening ++ after) ∧
      sliceFrom? (byteLength front + byteLength before + byteLength k.opening) (front ++ s) =
        some after := by
  have hs := eq_of_cutAt? hcut
  have hfrom := sliceFrom?_append (front ++ before) (k.opening ++ after)
  have hbehind := sliceFrom?_append (front ++ before ++ k.opening) after
  simp only [byteLength_append, List.append_assoc] at hs hfrom hbehind
  rw [hs, Nat.add_assoc]
  exact ⟨hfrom, hbehind⟩

variable {m : Type → Type} [Monad m] (fill : String → m String)

section Step

variable {front : List Char} (hfront : front.getLast? ≠ some '\\') (written : List Char)
include hfront

theorem scanFrom_of_absent (hcut : cutAt? k.opening s = none) :
    scanFrom k fill (front ++ s) written (byteLength front) = pure (some (written ++ s)) := by
  have hprobe := probe_append k.opening hfront s
  rw [scanFrom]
  split <;> simp_all

/-- An opening behind a backslash is written as text, and the walk goes on behind it. -/
theorem scanFrom_of_escaped (hcut : cutAt? k.opening s = some (before, after))
    (hescaped : before.getLast? = some '\\') :
    scanFrom k fill (front ++ s) written (byteLength front) =
      scanFrom k fill (front ++ s) (written ++ before.dropLast ++ k.opening)
        (byteLength (front ++ before ++ k.opening)) := by
  have hprobe := probe_append k.opening hfront s
  rw [scanFrom]
  split <;> simp_all [byteLength_append, Nat.add_assoc]

/-- Where an opening is never closed, the rest of the text stands as it is. -/
theorem scanFrom_of_unclosed (hcut : cutAt? k.opening s = some (before, after))
    (hescaped : before.getLast? ≠ some '\\') (hclosing : closing? after = none) :
    scanFrom k fill (front ++ s) written (byteLength front) = pure (some (written ++ s)) := by
  have hprobe := probe_append k.opening hfront s
  have hclose := closeFrom_zero after
  obtain ⟨hfrom, hbehind⟩ := sliceFrom?_of_cutAt? front hcut
  have hrest : written ++ s = written ++ before ++ (k.opening ++ after) := by
    rw [eq_of_cutAt? hcut]
    simp only [List.append_assoc]
  rw [hrest, scanFrom]
  clear hrest
  split <;> simp_all

/-- The body of a marker is handed on, and the walk goes on behind its closing brace. -/
theorem scanFrom_of_closed {body rest : List Char}
    (hcut : cutAt? k.opening s = some (before, after))
    (hescaped : before.getLast? ≠ some '\\') (hclosing : closing? after = some (body, rest)) :
    scanFrom k fill (front ++ s) written (byteLength front) = (do
      let text ← fill (.ofList body)
      scanFrom k fill (front ++ s) (written ++ before ++ text.toList)
        (byteLength (front ++ before ++ k.opening) + (byteLength after - byteLength rest))) := by
  have hprobe := probe_append k.opening hfront s
  have hclose := closeFrom_zero after
  obtain ⟨-, hbehind⟩ := sliceFrom?_of_cutAt? front hcut
  rw [scanFrom]
  split <;> simp_all [byteLength_append, Nat.add_assoc]

end Step

variable [LawfulMonad m]

theorem assemble_map_char (text : List Char) :
    assemble fill (text.map .char) = pure text := by
  have happend := assemble_char_append fill text []
  rw [List.append_nil] at happend
  rw [happend, assemble, map_pure, List.append_nil]

/-- From a cursor behind a part that does not end in a backslash, the walk writes what the pieces
behind the cursor come to. The part before the cursor ends in a brace wherever the walk goes on. -/
theorem scanFrom_append {front : List Char} (hfront : front.getLast? ≠ some '\\')
    (s written : List Char) :
    scanFrom k fill (front ++ s) written (byteLength front) =
      (fun text => some (written ++ text)) <$> assemble fill (pieces k s) := by
  induction hn : s.length using Nat.strong_induction_on generalizing front s written with
  | _ n ih =>
    subst hn
    cases hcut : cutAt? k.opening s with
    | none =>
      rw [scanFrom_of_absent fill hfront written hcut, pieces_eq_map hcut, assemble_map_char,
        map_pure]
    | some cut =>
      obtain ⟨before, after⟩ := cut
      have htext : front ++ s = front ++ before ++ k.opening ++ after := by
        rw [eq_of_cutAt? hcut]
        simp only [List.append_assoc]
      have hafter : after.length < s.length := by
        have hlength := length_of_cutAt? hcut
        rw [show k.opening.length = 2 from rfl] at hlength
        omega
      have hpieces := pieces_of_cutAt? hcut
      by_cases hescaped : before.getLast? = some '\\'
      · have hbrace : (front ++ before ++ k.opening).getLast? ≠ some '\\' := by
          simp [opening]
        rw [if_pos hescaped] at hpieces
        rw [scanFrom_of_escaped fill hfront written hcut hescaped, htext,
          ih _ hafter hbrace after _ rfl, hpieces, assemble_char_append]
        simp
      rw [if_neg hescaped] at hpieces
      cases hclosing : closing? after with
      | none =>
        rw [hclosing] at hpieces
        dsimp only at hpieces
        rw [scanFrom_of_unclosed fill hfront written hcut hescaped hclosing, hpieces,
          assemble_map_char, map_pure]
      | some r =>
        obtain ⟨inside, rfl⟩ := exists_of_closing? hclosing
        have hwhole : front ++ s = front ++ before ++ k.opening ++ inside ++ ['}'] ++ r.2 := by
          rw [htext]
          simp only [List.append_assoc, List.singleton_append]
        have hbrace : (front ++ before ++ k.opening ++ inside ++ ['}']).getLast? ≠ some '\\' := by
          simp
        have hcursor : byteLength (front ++ before ++ k.opening) +
            (byteLength (inside ++ '}' :: r.2) - byteLength r.2) =
              byteLength (front ++ before ++ k.opening ++ inside ++ ['}']) := by
          simp only [byteLength_append, byteLength]
          omega
        have hrest (written : List Char) := ih _ ((length_of_closing? hclosing).trans hafter)
          hbrace r.2 written rfl
        rw [hclosing] at hpieces
        dsimp only at hpieces
        rw [scanFrom_of_closed fill hfront written hcut hescaped hclosing, hcursor, hwhole,
          hpieces, assemble_char_append, assemble]
        simp only [hrest]
        simp

theorem scan_eq (text : String) : scan k fill text = some <$> k.replaceM fill text := by
  have hscan := scanFrom_append (k := k) fill
    (show ([] : List Char).getLast? ≠ some '\\' from nofun) text.toList []
  rw [List.nil_append, byteLength] at hscan
  rw [scan, hscan, replaceM]
  simp

end Walk

/-! ### The escapes undone -/

/-- A handler that raises a flag. -/
def raise (_ : String) : StateM Bool String := do
  set true
  return ""

/-- Whether the walk comes upon a marker. -/
def raised (k : Marker) (text : String) : Bool :=
  ((scan k raise text).run false).2

theorem assemble_raise (ps : List Piece) (flag : Bool) :
    ((assemble raise ps).run flag).2 = (flag || ps.any (· matches .token _)) := by
  induction ps generalizing flag with
  | nil => exact (Bool.or_false flag).symm
  | cons p ps ih =>
    cases p with
    | char c => exact ih flag
    | token body => exact (ih true).trans (Bool.or_true flag).symm

theorem raised_eq (k : Marker) (text : String) : raised k text = k.occursIn text := by
  have hany : (pieces k text.toList).any (· matches .token _) = k.occursIn text := by
    rw [occursIn, bodies]
    generalize pieces k text.toList = ps
    induction ps with
    | nil => rfl
    | cons p ps ih => cases p <;> simp_all
  rw [raised, scan_eq]
  exact ((assemble_raise _ false).trans (Bool.false_or _)).trans hany

/-- A handler that writes down the bodies it is given. -/
def record (body : String) : StateM (List String) String := do
  modify (· ++ [body])
  return "<" ++ body ++ ">"

/-- The walk over a text has a result, whatever the text and the handler: every slice it asks for
is one of the text. It is the text with its markers replaced, and so the walk over a text that was
written from segments hands the bodies on in order, and puts what it is given in their places
between the literals as they were. -/
theorem scanner_undoes_escaping {m : Type → Type} [Monad m] [LawfulMonad m] (k : Marker)
    (fill : String → m String) :
    (∀ text, scan k fill text = some <$> k.replaceM fill text ∧ raised k text = k.occursIn text) ∧
      ∀ segments, Segment.Apart segments →
        scan k fill (writeAll k segments) =
            (fun text => some (String.ofList text)) <$> fillAll fill segments ∧
          k.bodies (writeAll k segments) = segments.filterMap Segment.body? ∧
          (k.occursIn (writeAll k segments) = true ↔ ∃ body, .token body ∈ segments) := by
  refine ⟨fun text => ⟨scan_eq fill text, raised_eq k text⟩, fun segments hapart =>
    ⟨?_, bodies_writeAll hapart, occursIn_writeAll hapart⟩⟩
  rw [scan_eq, replaceM_writeAll fill hapart]
  simp

theorem scanner_undoes_escaping_record :
    let segments : List Segment :=
      [.literal "$${a} ".toList, .token "b\x7d$".toList, .token [], .literal "\\".toList]
    Segment.Apart segments ∧
      writeAll .substitution segments = "$\\${a} $\x7bb\\\x7d$\x7d${}\\" ∧
      (scan .substitution record (writeAll .substitution segments)).run [] =
        (some "$${a} <b\x7d$><>\\", ["b\x7d$", ""]) := by
  have hapart : Segment.Apart [.literal "$${a} ".toList, .token "b\x7d$".toList, .token [],
      .literal "\\".toList] := by
    simp [Segment.Apart]
  refine ⟨hapart, by decide, ?_⟩
  rw [((scanner_undoes_escaping .substitution record).2 _ hapart).1]
  rfl

end Marker

end SqlTemplate
