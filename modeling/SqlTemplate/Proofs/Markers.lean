import SqlTemplate.Marker

/-!
# Cutting texts at markers

The pieces of a text by what stands at its front, and the replacement of markers as a function
of the pieces, on lists of characters.

## Main definitions

* `Marker.refill` : the pieces put together again, with other bodies in the markers.

## Main results

* `Marker.pieces_eq` : the pieces of a text, by its front.
* `Marker.cut_induction` : induction along the cuts of a text.
* `Marker.toList_replace` : replacing markers, on lists of characters.
-/

namespace SqlTemplate.Marker

variable {k : Marker} {s rest body : List Char} {c : Char}

/-! ### The front of a text -/

theorem front_eq_escaped (k : Marker) (rest : List Char) :
    front k ('\\' :: k.mark :: '{' :: rest) = .escaped rest := by
  simp [front]

theorem front_eq_opened (k : Marker) (rest : List Char) :
    front k (k.mark :: '{' :: rest) = .opened rest := by
  cases k <;> simp [front, mark]

theorem eq_nil_of_front (h : front k s = .done) : s = [] := by
  revert h
  fun_cases front k s <;> simp

theorem eq_of_front_plain (h : front k s = .plain c rest) : s = c :: rest := by
  revert h
  fun_cases front k s <;> grind

theorem eq_of_front_escaped (h : front k s = .escaped rest) :
    s = '\\' :: k.mark :: '{' :: rest := by
  revert h
  fun_cases front k s <;> simp_all

theorem eq_of_front_opened (h : front k s = .opened rest) : s = k.mark :: '{' :: rest := by
  revert h
  fun_cases front k s <;> simp_all

/-- The pieces of a text, by what stands at its front. -/
theorem pieces_eq (k : Marker) (s : List Char) :
    pieces k s = match front k s with
      | .done => []
      | .escaped rest => .char k.mark :: .char '{' :: pieces k rest
      | .plain c rest => .char c :: pieces k rest
      | .opened rest => match closing? rest with
        | none => s.map .char
        | some (body, after) => .token body :: pieces k after := by
  rw [pieces]
  split <;> simp_all
  split <;> simp_all

@[simp] theorem pieces_nil (k : Marker) : pieces k [] = [] := by
  rw [pieces_eq, front]

theorem pieces_escaped (k : Marker) (rest : List Char) :
    pieces k ('\\' :: k.mark :: '{' :: rest) = .char k.mark :: .char '{' :: pieces k rest := by
  rw [pieces_eq, front_eq_escaped]

theorem pieces_plain (h : front k (c :: rest) = .plain c rest) :
    pieces k (c :: rest) = .char c :: pieces k rest := by
  rw [pieces_eq, h]

theorem pieces_unclosed (k : Marker) (h : closing? rest = none) :
    pieces k (k.mark :: '{' :: rest) = (k.mark :: '{' :: rest).map .char := by
  rw [pieces_eq, front_eq_opened]
  simp only [h]

theorem pieces_marker {after : List Char} (k : Marker) (h : closing? rest = some (body, after)) :
    pieces k (k.mark :: '{' :: rest) = .token body :: pieces k after := by
  rw [pieces_eq, front_eq_opened]
  simp only [h]

/-- Induction along the cuts of a text. -/
theorem cut_induction (k : Marker) {motive : List Char → Prop} (done : motive [])
    (escaped : ∀ rest, motive rest → motive ('\\' :: k.mark :: '{' :: rest))
    (plain : ∀ c rest, front k (c :: rest) = .plain c rest → motive rest → motive (c :: rest))
    (unclosed : ∀ rest, closing? rest = none → motive (k.mark :: '{' :: rest))
    (marker : ∀ rest body after, closing? rest = some (body, after) → motive after →
      motive (k.mark :: '{' :: rest)) (s : List Char) : motive s := by
  induction hn : s.length using Nat.strongRecOn generalizing s with
  | ind n ih =>
    subst hn
    cases hf : front k s with
    | done =>
      obtain rfl := eq_nil_of_front hf
      exact done
    | escaped rest =>
      obtain rfl := eq_of_front_escaped hf
      exact escaped rest (ih rest.length (by simp only [List.length_cons]; omega) rest rfl)
    | plain c rest =>
      obtain rfl := eq_of_front_plain hf
      exact plain c rest hf (ih rest.length (by simp) rest rfl)
    | opened rest =>
      obtain rfl := eq_of_front_opened hf
      cases hc : closing? rest with
      | none => exact unclosed rest hc
      | some r =>
        have hlt := length_of_closing? hc
        exact marker rest r.1 r.2 hc
          (ih r.2.length (by simp only [List.length_cons]; omega) r.2 rfl)

/-! ### Replacing markers -/

/-- A piece as text, with a body in the place of a marker's own. -/
def Piece.refill (k : Marker) (f : List Char → List Char) : Piece → List Char
  | .char c => [c]
  | .token body => k.mark :: '{' :: (f body ++ ['}'])

/-- The pieces of a text put together again, with other bodies in the markers. -/
def refill (k : Marker) (f : List Char → List Char) (s : List Char) : List Char :=
  (pieces k s).flatMap (Piece.refill k f)

theorem toList_replace (k : Marker) (fill : String → String) (s : String) :
    (k.replace fill s).toList = (pieces k s.toList).flatMap fun
      | .char c => [c]
      | .token body => (fill (.ofList body)).toList := by
  have hassemble (ps : List Piece) :
      Id.run (assemble (fun body => pure (fill body)) ps) = ps.flatMap fun
        | .char c => [c]
        | .token body => (fill (.ofList body)).toList := by
    induction ps with
    | nil => rfl
    | cons p ps ih =>
      cases p with
      | char c => exact congrArg (c :: ·) ih
      | token body => exact congrArg ((fill (.ofList body)).toList ++ ·) ih
  change (String.ofList
    (Id.run (assemble (fun body => pure (fill body)) (pieces k s.toList)))).toList = _
  rw [String.toList_ofList, hassemble]

end SqlTemplate.Marker
