import SqlTemplate.Proofs.Passes

/-!
# Writing markers

A text is written from literals and the bodies of markers. Within a literal each opening is put
behind a backslash, within a body each closing brace, and a body stands between an opening and a
closing brace. Read again the text has the pieces that it was written from, unless a backslash of
the literal or of the body itself comes to stand before an opening or a closing brace.

## Main definitions

* `Marker.Segment` : a literal or the body of a marker.
* `Marker.writeAll` : the text that is written from segments.
* `Marker.Segment.Apart` : no two literals meet, and no backslash escapes what comes after it.

## Main results

* `Marker.pieces_writeAll` : a written text has the pieces of its segments.
* `Marker.replaceM_writeAll` : replacing the markers of a written text fills in its segments.
-/

namespace SqlTemplate.Marker

variable {k : Marker}

/-- A literal, or the body of a marker. -/
inductive Segment where
  | literal (text : List Char)
  | token (body : List Char)
  deriving DecidableEq, Repr

/-- A literal with a backslash before each opening. -/
def escapeOpenings (k : Marker) : List Char → List Char
  | [] => []
  | [c] => [c]
  | c :: d :: s =>
    if c = k.mark ∧ d = '{' then '\\' :: c :: d :: escapeOpenings k s
    else c :: escapeOpenings k (d :: s)

/-- A body with a backslash before each closing brace. -/
def escapeClosings : List Char → List Char
  | [] => []
  | c :: s => if c = '}' then '\\' :: c :: escapeClosings s else c :: escapeClosings s

namespace Segment

/-- The characters of a segment. -/
def write (k : Marker) : Segment → List Char
  | .literal text => escapeOpenings k text
  | .token body => k.mark :: '{' :: (escapeClosings body ++ ['}'])

/-- The pieces of a segment. -/
def pieces : Segment → List Piece
  | .literal text => text.map .char
  | .token body => [.token body]

/-- The body of a marker, as it is handed on. -/
def body? : Segment → Option String
  | .literal _ => none
  | .token body => some (.ofList body)

/-- No two literals meet, and neither does a literal end in a backslash before a marker nor a
body. -/
def Apart : List Segment → Prop
  | [] => True
  | [.literal _] => True
  | .literal _ :: .literal _ :: _ => False
  | .literal text :: .token body :: rest =>
    text.getLast? ≠ some '\\' ∧ Apart (.token body :: rest)
  | .token body :: rest => body.getLast? ≠ some '\\' ∧ Apart rest

end Segment

/-- The text that is written from segments. -/
def writeAll (k : Marker) (segments : List Segment) : String :=
  .ofList (segments.flatMap (Segment.write k))

/-- The segments put together as they are, where `fill` gives the text of each body in order. -/
def fillAll {m : Type → Type} [Monad m] (fill : String → m String) : List Segment → m (List Char)
  | [] => pure []
  | .literal text :: rest => do
    let tail ← fillAll fill rest
    return text ++ tail
  | .token body :: rest => do
    let text ← fill (.ofList body)
    let tail ← fillAll fill rest
    return text.toList ++ tail

/-! ### Bodies -/

/-- A written body is read up to its closing brace. -/
theorem closing?_escapeClosings {body : List Char} (hlast : body.getLast? ≠ some '\\')
    (t : List Char) : closing? (escapeClosings body ++ '}' :: t) = some (body, t) := by
  induction body with
  | nil => rfl
  | cons c s ih =>
    have hs : s.getLast? ≠ some '\\' := by
      intro h
      refine hlast ?_
      rw [List.getLast?_cons, h]
      rfl
    rw [escapeClosings]
    split
    · rename_i hc
      subst hc
      rw [List.cons_append, List.cons_append, closing?, ih hs]
      rfl
    · rename_i hc
      have hnext : c = '\\' → (escapeClosings s ++ '}' :: t).head? ≠ some '}' := by
        rintro rfl
        cases s with
        | nil => exact absurd rfl hlast
        | cons d s =>
          rw [escapeClosings]
          split <;> simp_all
      rw [List.cons_append, closing?_cons hc hnext, ih hs]
      rfl

/-! ### Literals -/

/-- What stands behind a literal: the end of the text, or a marker that the literal does not
escape. -/
def EndsLiteral (k : Marker) (text t : List Char) : Prop :=
  t = [] ∨ text.getLast? ≠ some '\\' ∧ ∃ r, t = k.mark :: '{' :: r

theorem EndsLiteral.ne_brace {text t : List Char} (h : EndsLiteral k text t) (r : List Char) :
    t ≠ '{' :: r := by
  rcases h with rfl | ⟨-, u, rfl⟩
  · exact nofun
  · exact fun h => mark_ne_brace k (List.cons.inj h).1

theorem EndsLiteral.tail {c : Char} {text t : List Char} (h : EndsLiteral k (c :: text) t) :
    EndsLiteral k text t := by
  rcases h with rfl | ⟨hlast, hopening⟩
  · exact .inl rfl
  · refine .inr ⟨fun hcon => hlast ?_, hopening⟩
    rw [List.getLast?_cons, hcon]
    rfl

/-- A brace at the front of a written literal is one of the literal. -/
theorem eq_brace_of_escapeOpenings {d : Char} {s t r : List Char}
    (h : escapeOpenings k (d :: s) ++ t = '{' :: r) : d = '{' := by
  cases s with
  | nil => exact (List.cons.inj h).1
  | cons e s =>
    rw [escapeOpenings] at h
    split at h
    · exact absurd (List.cons.inj h).1 (by decide)
    · exact (List.cons.inj h).1

/-- What is written of a literal does not begin with an opening. -/
theorem escapeOpenings_ne_opening {d : Char} {s t : List Char} (ht : EndsLiteral k (d :: s) t)
    (r : List Char) : escapeOpenings k (d :: s) ++ t ≠ k.mark :: '{' :: r := by
  intro h
  cases s with
  | nil => exact ht.ne_brace r (List.cons.inj h).2
  | cons e s =>
    rw [escapeOpenings] at h
    split at h
    · exact mark_ne_backslash k (List.cons.inj h).1.symm
    · rename_i hopening
      obtain ⟨hd, hrest⟩ := List.cons.inj h
      exact hopening ⟨hd, eq_brace_of_escapeOpenings hrest⟩

/-- A written literal has its characters for pieces. -/
theorem pieces_escapeOpenings {text t : List Char} (ht : EndsLiteral k text t) :
    pieces k (escapeOpenings k text ++ t) = text.map .char ++ pieces k t := by
  fun_induction escapeOpenings k text with
  | case1 => rfl
  | case2 c =>
    rw [List.singleton_append, pieces_plain]
    · rfl
    · refine front_eq_plain_iff.2 ⟨?_, fun _ r => ht.ne_brace r⟩
      rintro rfl r rfl
      rcases ht with h | ⟨hlast, -⟩
      · cases h
      · exact hlast rfl
  | case3 c d s hopening ih =>
    obtain ⟨rfl, rfl⟩ := hopening
    simp only [List.cons_append, pieces_escaped, ih ht.tail.tail, List.map_cons]
  | case4 c d s hopening ih =>
    rw [List.cons_append, pieces_plain, ih ht.tail]
    · rfl
    · refine front_eq_plain_iff.2 ⟨fun _ => escapeOpenings_ne_opening ht.tail, ?_⟩
      rintro rfl r h
      exact hopening ⟨rfl, eq_brace_of_escapeOpenings h⟩

/-! ### Segments -/

/-- A written marker is a piece of its own. -/
theorem pieces_write_token {body : List Char} (hlast : body.getLast? ≠ some '\\') (t : List Char) :
    pieces k (Segment.write k (.token body) ++ t) = .token body :: pieces k t := by
  have hclosing := closing?_escapeClosings hlast t
  rw [Segment.write, List.cons_append, List.cons_append, List.append_assoc, List.singleton_append,
    pieces_marker k hclosing]

/-- A written text has the pieces of its segments. -/
theorem pieces_flatMap {segments : List Segment} (h : Segment.Apart segments) :
    pieces k (segments.flatMap (Segment.write k)) = segments.flatMap Segment.pieces := by
  fun_induction Segment.Apart segments with
  | case1 => exact pieces_nil k
  | case2 text =>
    have hends : EndsLiteral k text [] := .inl rfl
    have hpieces := pieces_escapeOpenings hends
    rw [List.append_nil, pieces_nil, List.append_nil] at hpieces
    simpa [Segment.write, Segment.pieces] using hpieces
  | case3 => exact h.elim
  | case4 text body rest ih =>
    have hends : EndsLiteral k text ((Segment.token body :: rest).flatMap (Segment.write k)) :=
      .inr ⟨h.1, _, rfl⟩
    rw [List.flatMap_cons, Segment.write, pieces_escapeOpenings hends, ih h.2, List.flatMap_cons]
    rfl
  | case5 body rest ih =>
    rw [List.flatMap_cons, pieces_write_token h.1, ih h.2, List.flatMap_cons]
    rfl

theorem pieces_writeAll {segments : List Segment} (h : Segment.Apart segments) :
    pieces k (writeAll k segments).toList = segments.flatMap Segment.pieces := by
  rw [writeAll, String.toList_ofList, pieces_flatMap h]

section Fill

variable {m : Type → Type} [Monad m] [LawfulMonad m] (fill : String → m String)

theorem assemble_char_append (text : List Char) (ps : List Piece) :
    assemble fill (text.map .char ++ ps) = (text ++ ·) <$> assemble fill ps := by
  induction text with
  | nil => exact (id_map _).symm
  | cons c text ih =>
    rw [List.map_cons, List.cons_append, assemble, ih]
    simp

theorem assemble_segments (segments : List Segment) :
    assemble fill (segments.flatMap Segment.pieces) = fillAll fill segments := by
  induction segments with
  | nil => rfl
  | cons segment rest ih =>
    cases segment with
    | literal text =>
      rw [List.flatMap_cons, Segment.pieces, assemble_char_append, ih, fillAll,
        map_eq_pure_bind]
    | token body =>
      rw [List.flatMap_cons, Segment.pieces, List.singleton_append, assemble, ih, fillAll]

/-- Replacing the markers of a written text gives each body to `fill` in order, and puts the texts
that it gets between the literals. -/
theorem replaceM_writeAll {segments : List Segment} (h : Segment.Apart segments) :
    k.replaceM fill (writeAll k segments) = String.ofList <$> fillAll fill segments := by
  rw [replaceM, pieces_writeAll h, assemble_segments]

end Fill

theorem bodies_writeAll {segments : List Segment} (h : Segment.Apart segments) :
    k.bodies (writeAll k segments) = segments.filterMap Segment.body? := by
  rw [bodies, pieces_writeAll h]
  clear h
  induction segments with
  | nil => rfl
  | cons segment rest ih =>
    rw [List.flatMap_cons, List.filterMap_append, ih]
    cases segment with
    | literal text =>
      rw [Segment.pieces, List.filterMap_map,
        List.filterMap_cons_none (show Segment.body? (.literal text) = none from rfl)]
      simp
    | token body => rfl

/-- There is a marker in a written text if there is one among its segments. -/
theorem occursIn_writeAll {segments : List Segment} (h : Segment.Apart segments) :
    k.occursIn (writeAll k segments) = true ↔ ∃ body, Segment.token body ∈ segments := by
  rw [occursIn, bodies_writeAll h, Bool.not_eq_true', List.isEmpty_eq_false_iff_exists_mem]
  constructor
  · rintro ⟨text, htext⟩
    obtain ⟨segment, hmem, hbody⟩ := List.mem_filterMap.1 htext
    cases segment with
    | literal text => cases hbody
    | token body => exact ⟨body, hmem⟩
  · rintro ⟨body, hmem⟩
    exact ⟨.ofList body, List.mem_filterMap.2 ⟨_, hmem, rfl⟩⟩

end SqlTemplate.Marker
