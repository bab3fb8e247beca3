import SqlTemplate.Proofs.Cuts
import SqlTemplate.Proofs.PathCuts

/-!
# Segments of paths

A path is written segment after segment: a name as it stands, with a point in front unless it
comes first, and a key in brackets, in quotes or bare. The splitter cuts the text at its points
before it looks at brackets, so that a name and the keys behind it are one part of the path. What
is written is read back exactly if no key has a point: no step that the splitter gives has one.

## Main definitions

* `PropertyPath.Segment` : a step as a path has it written.
* `PropertyPath.Segment.IsProper` : names without points and brackets, keys without closing
  brackets and quotes, and blanks at the ends in quotes alone.
* `PropertyPath.write` : the text of a path.

## Main results

* `PropertyPath.partSteps_flatMap` : the steps of one part.
* `PropertyPath.steps_flatMap` : a path whose keys have no points is read back.
* `PropertyPath.point_notMem_of_mem_steps` : no step has a point.
* `PropertyPath.written_path_read_back_iff` : a path is read back exactly if no key has a point.
-/

namespace SqlTemplate

open Text

namespace PropertyPath

/-- A step as a path has it written: a name, or a key in brackets, bare or in quotes. -/
inductive Segment where
  | name (key : String)
  | bare (key : String)
  | quoted (key : String)
  deriving DecidableEq, Repr

namespace Segment

/-- The step that a segment writes. -/
def toStep : Segment → Step
  | .name key => .name key
  | .bare key | .quoted key => .index key

/-- The characters of a segment. -/
def chars : Segment → List Char
  | .name key => key.toList
  | .bare key => '[' :: (key.toList ++ [']'])
  | .quoted key => '[' :: (('\'' :: (key.toList ++ ['\''])) ++ [']'])

/-- The characters of a segment behind another one: a name follows a point. -/
def behind (g : Segment) : List Char :=
  match g with
  | .name _ => '.' :: g.chars
  | .bare _ | .quoted _ => g.chars

/-- A segment in brackets. -/
def InBrackets : Segment → Prop
  | .name _ => False
  | .bare _ | .quoted _ => True

/-- A name is a text without points and brackets and without blanks at its ends. A key has neither
closing brackets nor quotes, and it stands bare only where no blank is at its ends. -/
def IsProper : Segment → Prop
  | .name key => key ≠ "" ∧ trimmed key = key ∧
      ∀ c ∈ key.toList, c ≠ '.' ∧ c ≠ '[' ∧ c ≠ ']'
  | .bare key => key ≠ "" ∧ trimmed key = key ∧
      ∀ c ∈ key.toList, c ≠ ']' ∧ isQuote c = false
  | .quoted key => ∀ c ∈ key.toList, c ≠ ']' ∧ isQuote c = false

/-- There is no point in what a segment names. -/
def IsWhole (g : Segment) : Prop :=
  '.' ∉ g.toStep.key.toList

end Segment

/-- The text of a path: its names are joined by points. -/
def write : List Segment → String
  | [] => ""
  | first :: rest => .ofList (first.chars ++ rest.flatMap Segment.behind)

theorem trim_toList {s : String} (h : trimmed s = s) : trim s.toList = s.toList := by
  have hchars := congrArg String.toList h
  rwa [trimmed, toList_mapChars] at hchars

/-! ### Keys in brackets -/

/-- A key in brackets is read up to the first closing bracket. -/
theorem brackets_cons {inner : List Char} (h : ']' ∉ inner) (s : List Char) :
    brackets ('[' :: (inner ++ ']' :: s)) =
      .index (.ofList (unquoted (trim inner))) :: brackets s := by
  have hcut := cutAtChar?_append (t := s) h
  rw [brackets]
  split
  · rename_i hnone
    rw [hcut] at hnone
    cases hnone
  · rename_i key rest hsome
    obtain ⟨rfl, rfl⟩ := Prod.mk.inj (Option.some.inj (hcut.symm.trans hsome))
    rfl

/-- What stands between quotes is left when they are taken off. -/
theorem unquoted_append {q w q' : List Char} (hq : ∀ c ∈ q, isQuote c = true)
    (hw : ∀ c ∈ w, isQuote c = false) (hq' : ∀ c ∈ q', isQuote c = true) :
    unquoted (q ++ (w ++ q')) = w := by
  have hback : (w ++ q').reverse.dropWhile isQuote = w.reverse := by
    rw [List.reverse_append]
    exact (takeWhile_dropWhile_append (by simpa using hq') fun c hc =>
      hw c (List.mem_reverse.1 (List.mem_of_mem_head? hc))).2
  cases w with
  | nil =>
    have hall : ∀ c ∈ q ++ ([] ++ q'), isQuote c = true := by
      intro c hc
      rw [List.nil_append] at hc
      exact (List.mem_append.1 hc).elim (hq c) (hq' c)
    rw [unquoted, List.dropWhile_eq_nil_iff.2 hall]
    rfl
  | cons d w =>
    have hfront : (q ++ (d :: w ++ q')).dropWhile isQuote = d :: w ++ q' :=
      (takeWhile_dropWhile_append hq fun c hc => by
        obtain rfl := Option.some.inj hc
        exact hw d List.mem_cons_self).2
    rw [unquoted, hfront, hback, List.reverse_reverse]

/-- A segment in brackets is a key between them, which is what is left without blanks and
quotes. -/
theorem Segment.exists_chars_eq {g : Segment} (hg : g.IsProper) (hin : g.InBrackets) :
    ∃ inner, g.chars = '[' :: (inner ++ [']']) ∧ ']' ∉ inner ∧
      unquoted (trim inner) = g.toStep.key.toList := by
  cases g with
  | name key => exact hin.elim
  | bare key =>
    obtain ⟨-, htrim, hall⟩ := hg
    refine ⟨key.toList, rfl, fun h => (hall _ h).1 rfl, ?_⟩
    have hkey : unquoted ([] ++ (key.toList ++ [])) = key.toList :=
      unquoted_append (List.forall_mem_nil _) (fun c hc => (hall c hc).2) (List.forall_mem_nil _)
    rw [trim_toList htrim]
    simpa [toStep, Step.key] using hkey
  | quoted key =>
    have hquote : ∀ c ∈ ['\''], isQuote c = true := by simp [isQuote]
    have hends : trim (['\''] ++ (key.toList ++ ['\''])) = ['\''] ++ (key.toList ++ ['\'']) := by
      refine trim_of_ends (fun c hc => ?_) fun c hc => ?_
      · obtain rfl := Option.some.inj hc
        rfl
      · rw [← List.append_assoc, List.getLast?_concat] at hc
        obtain rfl := Option.some.inj hc
        rfl
    refine ⟨['\''] ++ (key.toList ++ ['\'']), rfl, ?_, ?_⟩
    · simp only [List.singleton_append, List.mem_cons, List.mem_append, List.not_mem_nil, or_false,
        not_or]
      exact ⟨by decide, fun h => (hg _ h).1 rfl, by decide⟩
    · rw [hends]
      exact unquoted_append hquote (fun c hc => (hg c hc).2) hquote

theorem brackets_append {g : Segment} (hg : g.IsProper) (hin : g.InBrackets) (s : List Char) :
    brackets (g.chars ++ s) = g.toStep :: brackets s := by
  obtain ⟨inner, hchars, hclosing, hkey⟩ := Segment.exists_chars_eq hg hin
  have hread := brackets_cons hclosing s
  rw [hkey, String.ofList_toList] at hread
  have hstep : g.toStep = .index g.toStep.key := by
    cases g with
    | name key => exact hin.elim
    | bare key | quoted key => rfl
  rw [hchars, hstep, List.cons_append, List.append_assoc, List.singleton_append, hread]

theorem brackets_flatMap {keys : List Segment}
    (hkeys : ∀ g ∈ keys, g.IsProper ∧ g.InBrackets) :
    brackets (keys.flatMap Segment.chars) = keys.map Segment.toStep := by
  induction keys with
  | nil => simp [brackets]
  | cons g keys ih =>
    obtain ⟨hg, hkeys⟩ := List.forall_mem_cons.1 hkeys
    rw [List.flatMap_cons, brackets_append hg.1 hg.2, ih hkeys, List.map_cons]

/-! ### Parts -/

/-- Keys that are not missing begin with a bracket and end in one. -/
theorem ends_flatMap {keys : List Segment} (hkeys : ∀ g ∈ keys, g.IsProper ∧ g.InBrackets)
    (hne : keys ≠ []) : (keys.flatMap Segment.chars).head? = some '[' ∧
      (keys.flatMap Segment.chars).getLast? = some ']' := by
  constructor
  · obtain ⟨g, rest, rfl⟩ := List.exists_cons_of_ne_nil hne
    obtain ⟨hg, hin⟩ := hkeys g List.mem_cons_self
    obtain ⟨inner, hchars, -⟩ := Segment.exists_chars_eq hg hin
    rw [List.flatMap_cons, hchars]
    rfl
  · obtain ⟨rest, g, rfl⟩ := (List.eq_nil_or_concat keys).resolve_left hne
    obtain ⟨hg, hin⟩ := hkeys g (by simp)
    obtain ⟨inner, hchars, -⟩ := Segment.exists_chars_eq hg hin
    have hend : ('[' :: (inner ++ [']'])).getLast? = some ']' := by
      rw [← List.cons_append, List.getLast?_concat]
    simp [hchars, hend]

/-- A name and keys behind it have no blank at either end. -/
theorem trim_part {head : List Char} (hhead : trim head = head) {keys : List Segment}
    (hkeys : ∀ g ∈ keys, g.IsProper ∧ g.InBrackets) :
    trim (head ++ keys.flatMap Segment.chars) = head ++ keys.flatMap Segment.chars := by
  by_cases hne : keys = []
  · rw [hne, List.flatMap_nil, List.append_nil, hhead]
  obtain ⟨hfirst, hlast⟩ := ends_flatMap hkeys hne
  refine trim_of_ends (fun c hc => ?_) fun c hc => ?_
  · cases head with
    | nil =>
      rw [List.nil_append, hfirst] at hc
      obtain rfl := Option.some.inj hc
      decide
    | cons d head =>
      obtain rfl := Option.some.inj hc
      refine isBlank_of_trimStart (s := trim (d :: head)) (t := head) ?_
      rw [trimStart_trim, hhead]
  · rw [List.getLast?_append, hlast] at hc
    obtain rfl := Option.some.inj hc
    decide

/-- The steps of a name, which may be absent, and the keys behind it. -/
theorem partSteps_append {head : List Char} (hhead : trim head = head) (hopening : '[' ∉ head)
    {keys : List Segment} (hkeys : ∀ g ∈ keys, g.IsProper ∧ g.InBrackets) :
    partSteps (head ++ keys.flatMap Segment.chars) =
      (if head.isEmpty then [] else [.name (.ofList head)]) ++ keys.map Segment.toStep := by
  have hname : ∀ c ∈ head, (c != '[') = true := by
    intro c hc
    rw [bne_iff_ne]
    exact fun h => hopening (h ▸ hc)
  have hkey : ∀ c ∈ (keys.flatMap Segment.chars).head?, (c != '[') = false := by
    intro c hc
    by_cases hne : keys = []
    · rw [hne] at hc
      cases hc
    · rw [(ends_flatMap hkeys hne).1] at hc
      obtain rfl := Option.some.inj hc
      decide
  have hsplit := takeWhile_dropWhile_append hname hkey
  rw [partSteps, trim_part hhead hkeys, hsplit.1, hsplit.2, brackets_flatMap hkeys]

/-- **One part.** A name and the keys behind it, or keys alone, are read back. -/
theorem partSteps_flatMap {part : List Segment} (hpart : ∀ g ∈ part, g.IsProper)
    (hkeys : ∀ g ∈ part.tail, g.InBrackets) :
    partSteps (part.flatMap Segment.chars) = part.map Segment.toStep := by
  have hread {keys : List Segment} (hkeys : ∀ g ∈ keys, g.IsProper ∧ g.InBrackets) :
      partSteps (keys.flatMap Segment.chars) = keys.map Segment.toStep := by
    have h := partSteps_append (show trim [] = [] from rfl) List.not_mem_nil hkeys
    simpa using h
  cases part with
  | nil => exact hread (List.forall_mem_nil _)
  | cons g keys =>
    obtain ⟨hg, hproper⟩ := List.forall_mem_cons.1 hpart
    have hboth : ∀ g ∈ keys, g.IsProper ∧ g.InBrackets :=
      fun g h => ⟨hproper g h, hkeys g h⟩
    cases g with
    | bare key | quoted key => exact hread (List.forall_mem_cons.2 ⟨⟨hg, trivial⟩, hboth⟩)
    | name key =>
      obtain ⟨hne, htrim, hall⟩ := hg
      have hchars : key.toList ≠ [] := by simpa using hne
      rw [List.flatMap_cons, Segment.chars,
        partSteps_append (trim_toList htrim) (fun h => (hall _ h).2.1 rfl) hboth,
        if_neg (by simpa using hchars), String.ofList_toList, List.map_cons, List.singleton_append,
        Segment.toStep]

/-- A point in a segment is one in what it names. -/
theorem Segment.point_notMem {g : Segment} (hg : g.IsWhole) : '.' ∉ g.chars := by
  cases g <;> simp [IsWhole, toStep, Step.key] at hg <;> simp [chars, hg]

/-! ### Paths -/

/-- A text is cut at its points, so that keys go to the part at hand and a name begins the next
one. Without points in its keys a path is read back. -/
theorem steps_flatMap {part : List Segment} (hpart : ∀ g ∈ part, g.IsProper ∧ g.IsWhole)
    (hkeys : ∀ g ∈ part.tail, g.InBrackets) {rest : List Segment}
    (hrest : ∀ g ∈ rest, g.IsProper ∧ g.IsWhole) :
    steps (.ofList (part.flatMap Segment.chars ++ rest.flatMap Segment.behind)) =
      part.map Segment.toStep ++ rest.map Segment.toStep := by
  have hread {part : List Segment} (hpart : ∀ g ∈ part, g.IsProper ∧ g.IsWhole)
      (hkeys : ∀ g ∈ part.tail, g.InBrackets) :
      steps (.ofList (part.flatMap Segment.chars)) = part.map Segment.toStep := by
    rw [steps_of_not_mem, partSteps_flatMap (fun g hg => (hpart g hg).1) hkeys]
    intro h
    obtain ⟨g, hg, hc⟩ := List.mem_flatMap.1 h
    exact Segment.point_notMem (hpart g hg).2 hc
  induction rest generalizing part with
  | nil =>
    rw [List.flatMap_nil, List.append_nil, hread hpart hkeys, List.map_nil, List.append_nil]
  | cons g rest ih =>
    obtain ⟨hg, hbehind⟩ := List.forall_mem_cons.1 hrest
    have hone : ∀ g' ∈ [g], g'.IsProper ∧ g'.IsWhole := by simpa using hg
    have hlonger (hin : g.InBrackets) : ∀ g' ∈ (part ++ [g]).tail, g'.InBrackets := by
      cases part with
      | nil => exact List.forall_mem_nil _
      | cons first part => exact List.forall_mem_append.2 ⟨hkeys, by simpa using hin⟩
    cases g with
    | name key =>
      have hnext := ih hone (by simp) hbehind
      rw [List.flatMap_singleton] at hnext
      rw [List.flatMap_cons, Segment.behind, List.cons_append, steps_append, hread hpart hkeys,
        hnext]
      rfl
    | bare key | quoted key =>
      have hnext := ih (List.forall_mem_append.2 ⟨hpart, hone⟩) (hlonger trivial) hbehind
      simpa [Segment.behind] using hnext

theorem steps_write {path : List Segment} (hpath : ∀ g ∈ path, g.IsProper ∧ g.IsWhole) :
    steps (write path) = path.map Segment.toStep := by
  cases path with
  | nil => exact steps_nil
  | cons first rest =>
    obtain ⟨hfirst, hrest⟩ := List.forall_mem_cons.1 hpath
    have hone : ∀ g ∈ [first], g.IsProper ∧ g.IsWhole := by simpa using hfirst
    have hread := steps_flatMap hone (by simp) hrest
    rwa [List.flatMap_singleton] at hread

/-- **Written paths.** A path of names and keys is written with points between its names, and each
key in brackets, in quotes or bare. It is read back exactly if none of its keys has a point: names
have none, and keys may have blanks, opening brackets and, in quotes, nothing at all. -/
theorem written_path_read_back_iff {path : List Segment} (hpath : ∀ g ∈ path, g.IsProper) :
    steps (write path) = path.map Segment.toStep ↔
      ∀ key, .bare key ∈ path ∨ .quoted key ∈ path → '.' ∉ key.toList := by
  constructor
  · intro hread key hkey
    have hstep : Step.index key ∈ steps (.ofList (write path).toList) := by
      rw [String.ofList_toList, hread, List.mem_map]
      exact hkey.elim (fun h => ⟨_, h, rfl⟩) fun h => ⟨_, h, rfl⟩
    exact point_notMem_of_mem_steps hstep
  · intro hkeys
    refine steps_write fun g hg => ⟨hpath g hg, ?_⟩
    cases g with
    | name key => exact fun hpoint => ((hpath _ hg).2.2 _ hpoint).1 rfl
    | bare key => exact hkeys key (.inl hg)
    | quoted key => exact hkeys key (.inr hg)

/-- Keys in a row, one of them empty, one with blanks and a bracket, behind a key that comes
first. -/
theorem written_path_read_back_iff_of_keys :
    let path : List Segment := [.bare "0", .name "a b", .quoted "", .quoted " [ ", .name "it's"]
    (∀ g ∈ path, g.IsProper) ∧ write path = "[0].a b[''][' [ '].it's" ∧
      steps (write path) =
        [.index "0", .name "a b", .index "", .index " [ ", .name "it's"] := by
  intro path
  have htrim : trimmed "0" = "0" ∧ trimmed "a b" = "a b" ∧ trimmed "it's" = "it's" := by
    cbv
  have hproper : ∀ g ∈ path, g.IsProper := by
    simp [path, Segment.IsProper, isQuote, htrim]
  exact ⟨hproper, by cbv, (written_path_read_back_iff hproper).2 (by simp [path])⟩

/-- A point in a key cuts the key in two, and its second half becomes a name. -/
theorem point_in_key_cuts :
    let path : List Segment := [.name "a", .quoted "x.y"]
    (∀ g ∈ path, g.IsProper) ∧ write path = "a['x.y']" ∧
      steps (write path) = [.name "a", .name "y']"] ∧
      steps (write path) ≠ path.map Segment.toStep := by
  intro path
  have htrim : trimmed "a" = "a" := by
    cbv
  have hread : steps (write path) = [.name "a", .name "y']"] := by
    cbv
  refine ⟨by simp [path, Segment.IsProper, isQuote, htrim], by cbv, hread, ?_⟩
  rw [hread]
  decide

end PropertyPath

end SqlTemplate
