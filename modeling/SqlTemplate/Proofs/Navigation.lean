import SqlTemplate.Expr.Evaluation
import SqlTemplate.Proofs.ExpressionReading
import SqlTemplate.Proofs.PathWriting

/-!
# Navigation by expressions and by paths

Behind a name, an expression and a placeholder write the same steps. The expression is read step by
step into properties and keys and then evaluated, the path is split into keys and then followed, and
both come to the same value or to none. A list takes a position alone: as the key of an expression a
name is no integer, and as the key of a path it is none either.

## Main definitions

* `PathStep.apply` : the expression that a step makes of its target.

## Main results

* `PathStep.parse_write` : the expression that a name and a path are read as.
* `PathStep.evaluate_apply` : a step in an expression reads the attribute that it reads in a path.
* `PathStep.value_iff_resolve?` : evaluating a name with a path is following the path.
-/

open SqlTemplate.Text SqlTemplate.Expr

namespace SqlTemplate.PathStep

/-! ### The expression of a path -/

/-- The expression that a step makes of its target. -/
def apply (target : Expr) : PathStep → Expr
  | .field id => .property target id
  | .position n => .index target (.literal (.ofNat n))
  | .key id => .index target (.literal (.string id))

/-- The tokens of a step. -/
def tokens : PathStep → List Spelling
  | .field id => [.sign ".", .word id]
  | .position n => [.sign "[", literalToken (.ofNat n), .sign "]"]
  | .key id => [.sign "[", literalToken (.string id), .sign "]"]

theorem writesPostfix_apply {e : Expr} {ts : List Spelling} (h : WritesPostfix e ts)
    {step : PathStep} (hstep : step.IsPlain) :
    WritesPostfix (step.apply e) (ts ++ step.tokens) := by
  have hkey {v : Value} (hv : IsLiteral v) : WritesLevel 0 (.literal v) [literalToken v] :=
    (WritesPostfix.literal (writesLiteral_literalToken hv)).writesAt 0
  cases step with
  | field id => exact .property h hstep
  | position n =>
    have hn : IsLiteral (.ofNat n) := ⟨Int.natCast_nonneg n, Int.ofNat_lt.2 hstep⟩
    exact .index h (hkey hn)
  | key id =>
    have hid : IsLiteral (.string id) := trivial
    exact .index h (hkey hid)

theorem writesPostfix_foldl {e : Expr} {ts : List Spelling} (h : WritesPostfix e ts)
    {path : List PathStep} (hpath : ∀ step ∈ path, step.IsPlain) :
    WritesPostfix (path.foldl apply e) (ts ++ path.flatMap tokens) := by
  induction path generalizing e ts with
  | nil => simpa using h
  | cons step path ih =>
    obtain ⟨hstep, hbehind⟩ := List.forall_mem_cons.1 hpath
    have hnext := ih (writesPostfix_apply h hstep) hbehind
    rwa [List.append_assoc] at hnext

/-- No name goes on where a path begins. -/
theorem isNameChar_head (path : List PathStep) :
    ∀ c ∈ (path.flatMap chars).head?, isNameChar c = false := by
  intro c hc
  cases path with
  | nil => cases hc
  | cons step path =>
    cases step with
    | field id =>
      obtain rfl := Option.some.inj hc
      decide
    | position n | key id =>
      obtain rfl := Option.some.inj hc
      decide

/-- A name stands within quotes as it is. -/
theorem quotedChars_eq {s : List Char} (h : ∀ c ∈ s, isNameChar c = true) : quotedChars s = s := by
  induction s with
  | nil => rfl
  | cons c s ih =>
    obtain ⟨hc, hs⟩ := List.forall_mem_cons.1 h
    have hne : ¬ (c = '\'' ∨ c = '\\') := by
      rintro (rfl | rfl) <;> exact absurd hc (by decide)
    rw [quotedChars, if_neg hne, ih hs]

/-- A key in brackets is a token between two signs. -/
theorem chars_eq {step : PathStep} (h : step.IsPlain) (hin : step.InBrackets) :
    ∃ t, step.tokens = [.sign "[", .sign t, .sign "]"] ∧
      step.chars = '[' :: (t.toList ++ [']']) := by
  cases step with
  | field id => exact hin.elim
  | position n =>
    refine ⟨_, rfl, ?_⟩
    rw [String.toList_ofList]
    simp [chars, quotes, label]
  | key id =>
    refine ⟨_, rfl, ?_⟩
    have hchars : ∀ c ∈ id.toList, isNameChar c = true := (label_isNameChar h).2
    rw [String.toList_ofList, quotedChars_eq hchars]
    simp [chars, quotes, label]

theorem laidOut_flatMap {path : List PathStep} (hpath : ∀ step ∈ path, step.IsPlain) :
    LaidOut (path.flatMap tokens) (path.flatMap chars) := by
  induction path with
  | nil => exact .nil IsGap.nil
  | cons step path ih =>
    obtain ⟨hstep, hbehind⟩ := List.forall_mem_cons.1 hpath
    have hrest := ih hbehind
    by_cases hin : step.InBrackets
    · obtain ⟨t, htokens, hchars⟩ := chars_eq hstep hin
      have hlaid : LaidOut ([.sign "[", .sign t, .sign "]"] ++ path.flatMap tokens)
          ("[".toList ++ (t.toList ++ ("]".toList ++ path.flatMap chars))) :=
        .cons IsGap.nil trivial (.cons IsGap.nil trivial (.cons IsGap.nil trivial hrest))
      rw [List.flatMap_cons, List.flatMap_cons, htokens, hchars]
      simpa using hlaid
    · cases step with
      | field id =>
        exact .cons (t := .sign ".") IsGap.nil trivial
          (.cons (t := .word id) IsGap.nil (isNameChar_head path) hrest)
      | position n | key id => exact absurd trivial hin

/-- A name with a path behind it is read as the properties and keys of the path, one of the
other. -/
theorem parse_write {x : String} (hx : IsName x) (hreserved : x ∉ reserved)
    {path : List PathStep} (hpath : ∀ step ∈ path, step.IsPlain) :
    Expr.parse (x ++ write path) = .ok (path.foldl apply (.name x)) := by
  refine parse_of_written ⟨.word x :: path.flatMap tokens, ?_, ?_⟩
  · exact (writesPostfix_foldl (.name hx hreserved) hpath).writesAt 0
  · rw [String.toList_append, write, String.toList_ofList]
    exact .cons (t := .word x) IsGap.nil (isNameChar_head path) (laidOut_flatMap hpath)

/-! ### The value of a step -/

theorem digitValue?_eq_none {c : Char} (h : isNameStart c = true) : digitValue? 10 c = none := by
  have hdigit : ¬ c.isDigit = true := by
    intro hdigit
    rw [isNameStart_of_isDigit hdigit] at h
    cases h
  rw [digitValue?, if_neg hdigit, if_neg]
  split
  · omega
  · split <;> omega

/-- No name is a natural number. -/
theorem natural?_eq_none {id : String} (h : IsName id) : natural? 10 id.toList = none := by
  obtain ⟨c, s, hs, hstart, -⟩ := h.exists_cons
  have hplus : c ≠ '+' := by
    rintro rfl
    exact absurd hstart (by decide)
  rw [hs, natural?]
  · rw [digits?, List.foldlM_cons, digitValue?_eq_none hstart]
    rfl
  · exact List.cons_ne_nil c s
  · rintro t ht
    exact hplus (List.cons.inj ht).1

/-- As a value no name is an integer, though it may be another number. -/
theorem number?_ne_int {id : String} (h : IsName id) (n : Int) :
    (Value.string id).number? ≠ some (.int n) := by
  obtain ⟨c, s, hs, hstart, -⟩ := h.exists_cons
  have htrim : trim id.toList = id.toList :=
    trim_of_forall fun c hc => isBlank_of_endsRoot
      (endsRoot_of_isNameChar (List.all_eq_true.1 h.2 c hc))
  have hinteger : integer? id.toList = none := by
    have hnatural := natural?_eq_none h
    rw [hs] at hnatural ⊢
    rw [integer?, hnatural]
    · rfl
    · rintro t ht
      obtain rfl := (List.cons.inj ht).1
      exact absurd hstart (by decide)
  rw [Value.number?, Number.ofText?, htrim, hinteger]
  cases Decimal.float? id.toList <;> simp

theorem text_ofNat (n : Nat) : (Value.ofNat n).text = .ofList (Nat.toDigits 10 n) :=
  rfl

theorem number?_ofNat {n : Nat} (hn : n < 0x8000000000000000) :
    (Value.ofNat n).number? = some (.int n) := by
  have hrange : isInt64 n = true := by
    simp only [isInt64, Bool.and_eq_true, decide_eq_true_eq]
    omega
  exact congrArg some (if_pos hrange)

theorem position?_toDigits {n : Nat} (hn : n < 0x8000000000000000) :
    position? (Nat.toDigits 10 n) = some n := by
  rw [position?, naturalBelow?, (isNumeral_toDigits n).natural? (.inl rfl), Option.filter_some,
    if_pos (by simp only [decide_eq_true_eq]; omega)]

/-- An item of a value under a key is the attribute of the name that the key writes, where a list
has the key of an expression for an integer exactly where the path has it for a position. -/
theorem item_eq_ok_iff {key v w : Value}
    (hkey : (∀ n, key.number? ≠ some (.int n)) ∧ position? key.text.toList = none ∨
      ∃ n : Nat, key.number? = some (.int n) ∧ position? key.text.toList = some n) :
    item v key = .ok w ↔ Access.lenient.get? v key.text = some w := by
  cases v with
  | null | bool b | number n | string s => simp [item, Access.lenient]
  | object fields => simp [item, Access.lenient]
  | array items =>
    simp only [item, Access.lenient, Access.item?]
    rcases hkey with ⟨hnumber, hposition⟩ | ⟨n, hnumber, hposition⟩
    · rw [hposition]
      split
      · rename_i n h
        exact absurd h (hnumber n)
      · simp
    · rw [hnumber, hposition]
      simp

/-- A step in an expression reads the attribute that it reads in a path. -/
theorem evaluate_apply {scope : Scope} (hscope : scope.access = .lenient) {step : PathStep}
    (hstep : step.IsPlain) {e : Expr} {w : Value} :
    Expr.evaluate scope (step.apply e) = .ok w ↔
      ∃ v, Expr.evaluate scope e = .ok v ∧ Access.lenient.get? v step.toStep.key = some w := by
  have hindex {key : Value}
      (hkey : (∀ n, key.number? ≠ some (.int n)) ∧ position? key.text.toList = none ∨
        ∃ n : Nat, key.number? = some (.int n) ∧ position? key.text.toList = some n) :
      Expr.evaluate scope (.index e (.literal key)) = .ok w ↔
        ∃ v, Expr.evaluate scope e = .ok v ∧ Access.lenient.get? v key.text = some w := by
    rw [Expr.evaluate]
    cases he : Expr.evaluate scope e with
    | error fault => simp [bind, Except.bind]
    | ok v => simp [bind, Except.bind, Expr.evaluate, item_eq_ok_iff hkey]
  have hlabel (id : String) : String.ofList id.toList = id := String.ofList_toList
  cases step with
  | field id =>
    rw [apply, Expr.evaluate, hscope, show (PathStep.field id).toStep.key = id from hlabel id]
    cases he : Expr.evaluate scope e with
    | error fault => simp [bind, Except.bind]
    | ok v =>
      -- null has no attributes on either side, though only the expression tells it from others
      by_cases hnull : v.isNull = true
      · cases v <;> simp_all [Value.isNull, bind, Except.bind, Access.lenient]
      · cases hget : Access.lenient.get? v id <;> simp [bind, Except.bind, hnull, hget]
  | position n =>
    refine hindex (.inr ⟨n, number?_ofNat hstep, ?_⟩)
    rw [text_ofNat, String.toList_ofList, position?_toDigits hstep]
  | key id =>
    have hposition : position? id.toList = none := by
      rw [position?, naturalBelow?, natural?_eq_none hstep]
      rfl
    rw [show (PathStep.key id).toStep.key = (Value.string id).text from hlabel id]
    exact hindex (.inl ⟨number?_ne_int hstep, hposition⟩)

/-- Steps in an expression lead where they lead in a path. -/
theorem evaluate_foldl {scope : Scope} (hscope : scope.access = .lenient) {path : List PathStep}
    (hpath : ∀ step ∈ path, step.IsPlain) {e : Expr} {w : Value} :
    Expr.evaluate scope (path.foldl apply e) = .ok w ↔
      ∃ v, Expr.evaluate scope e = .ok v ∧
        Access.lenient.follow? v (path.map fun step => step.toStep.key) = some w := by
  induction path generalizing e with
  | nil => simp [Access.follow?]
  | cons step path ih =>
    obtain ⟨hstep, hbehind⟩ := List.forall_mem_cons.1 hpath
    rw [List.foldl_cons, ih hbehind]
    simp only [evaluate_apply hscope hstep, List.map_cons, Access.follow?, Option.bind_eq_some_iff]
    constructor
    · rintro ⟨u, ⟨v, hv, hu⟩, hw⟩
      exact ⟨v, hv, u, hu, hw⟩
    · rintro ⟨v, hv, u, hu, hw⟩
      exact ⟨u, ⟨v, hv, hu⟩, hw⟩

/-- Behind a name that stands for a value, an expression and a path that write the same steps lead
to the same value or to none. -/
theorem value_iff_resolve? {scope : Scope} {x : String} {v : Value} {path : List PathStep}
    (hscope : scope.access = .lenient) (hx : IsName x) (hreserved : x ∉ reserved)
    (hv : scope.resolve? x = some v) (hpath : ∀ step ∈ path, step.IsPlain) (w : Value) :
    Evaluator.standard.value scope (x ++ write path) = .ok w ↔
      Access.lenient.resolve? v (write path) = some w := by
  have hroot : Expr.evaluate scope (.name x) = .ok v := by
    rw [Expr.evaluate, hv]
  have hparse := parse_write hx hreserved hpath
  have hvalue : Evaluator.standard.value scope (x ++ write path) =
      Expr.evaluate scope (path.foldl apply (.name x)) := by
    simp only [Evaluator.standard, hparse, Except.bind]
  rw [hvalue, evaluate_foldl hscope hpath, Access.resolve?, steps_write hpath, List.map_map]
  simp only [hroot, Except.ok.injEq, exists_eq_left']
  rfl

/-- The article number on the second line of an order. -/
theorem value_iff_resolve?_order :
    let order : Value := .object [("lines", .array [.null, .object [("sku", .string "A")]])]
    let scope : Scope := ⟨fun x => if x = "order" then some order else none, .lenient⟩
    Evaluator.standard.value scope "order.lines[1]['sku']" = .ok (.string "A") ∧
      Access.lenient.resolve? order ".lines[1]['sku']" = some (.string "A") := by
  intro order scope
  have hpath : ∀ step ∈ [field "lines", position 1, key "sku"], step.IsPlain := by
    decide
  have hvalue := value_iff_resolve? (x := "order") (show scope.access = .lenient from rfl)
    (by decide) (by decide) (show scope.resolve? "order" = some order from rfl) hpath (.string "A")
  have hresolve : Access.lenient.resolve? order (write [field "lines", position 1, key "sku"]) =
      some (.string "A") := by
    rw [Access.resolve?, steps_write hpath]
    rfl
  exact ⟨hvalue.2 hresolve, hresolve⟩

end SqlTemplate.PathStep
