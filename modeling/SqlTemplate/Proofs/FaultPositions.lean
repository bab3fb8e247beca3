import Mathlib
import SqlTemplate.Proofs.Prologs

/-!
# Where markup is at fault

A fault of markup is reported with a position in the source. What stands before the position was
read, as the beginning of something that could have gone on, and what is left of the source from
there on is where the reader stood: a tag that is not ended, a name that is missing, a comment that
is not closed.

The items around the root element are the exception. The position of one that is not closed counts
from the end of the item or the element before it, so that it is the number of bytes of the blanks
between them. This is right where nothing but blanks stands before the item.

## Main definitions

* `Markup.AtElement`, `Markup.InTag`, `Markup.InContent`, `Markup.AtClosing` : what is read up to a
  place before an element, in a tag, in content and at the end of content.
* `Markup.Shows` : a fault, with what was read up to its place and what stands there.
* `Markup.Stop.Stands` : a reader stopped at a place that shows its fault.
* `Markup.PointsInto` : what the position of a failure says.

## Main results

* `Markup.stands_of_readElement`, `Markup.stands_of_readContent` : where the readers stop.
* `Markup.exists_of_skipProlog_eq_error` : where an item is not closed, and the position of that.
* `Markup.fault_position` : the position of every failure.
-/

namespace SqlTemplate

namespace Markup

open Text

/-! ### Places of faults -/

/-- What a source is read as: a document, with one root element, or content. -/
inductive Form
  | document
  | content

mutual

/-- What is read before an element: what may stand around the root element, or content. -/
inductive AtElement (form : Form) : List Char → Prop
  | root {p : List Char} : form = .document → IsProlog p → AtElement form p
  | child {s : List Char} : InContent form s → AtElement form s

/-- What is read up to a place in the tag that opens an element of this name, behind the name or
behind an attribute. -/
inductive InTag (form : Form) : String → List Char → Prop
  | name {name : String} {s : List Char} :
      AtElement form s → IsName name → InTag form name (s ++ '<' :: name.toList)
  | attribute {name : String} {s u : List Char} {a : String × String} :
      InTag form name s → ReadsAttribute a u → InTag form name (s ++ u)

/-- What is read up to a place in content. -/
inductive InContent (form : Form) : List Char → Prop
  | beginning : form = .content → InContent form []
  | opening {name : String} {s g : List Char} :
      InTag form name s → IsGap g → InContent form (s ++ (g ++ ['>']))
  | part {s w : List Char} {l : List Markup} :
      InContent form s → ReadsContent l w → InContent form (s ++ w)

end

/-- What is read up to the end of the content of an element of this name. -/
inductive AtClosing (form : Form) : String → List Char → Prop
  | intro {name : String} {s g w : List Char} {l : List Markup} :
      InTag form name s → IsGap g → ReadsContent l w → AtClosing form name (s ++ (g ++ '>' :: w))

/-- A fault is shown by what was read up to its place, and by what stands there. -/
inductive Shows (form : Form) : MarkupFault → List Char → List Char → Prop
  | openingName {s rest : List Char} :
      AtElement form s → (∀ c ∈ rest.head?, isNameChar c = false) →
      Shows form .expectedName (s ++ ['<']) rest
  | value {s before left right body : List Char} {name key : String} {q : Char} :
      InTag form name s → before ≠ [] → IsGap before → IsName key → IsGap left → IsGap right →
      q = '"' ∨ q = '\'' → q ∉ body →
      Shows form .unterminatedValue (s ++ (before ++ (key.toList ++ (left ++ '=' :: right))))
        (q :: body)
  | openingEnd {s g rest : List Char} {name : String} :
      InTag form name s → IsGap g → rest.head? ≠ some '>' → ¬ "/>".toList <+: rest →
      Shows form .expectedCharacter (s ++ g) rest
  | comment {s body : List Char} :
      InContent form s → ¬ "-->".toList <:+: body →
      Shows form .unterminatedComment (s ++ "<!--".toList) body
  | data {s body : List Char} :
      InContent form s → ¬ "]]>".toList <:+: body →
      Shows form .unterminatedData s ("<![CDATA[".toList ++ body)
  | unclosed {s : List Char} {name : String} :
      AtClosing form name s → Shows form (.unclosed name) s []
  | closingName {s rest : List Char} {name : String} :
      AtClosing form name s → (∀ c ∈ rest.head?, isNameChar c = false) →
      Shows form .expectedName (s ++ ['<', '/']) rest
  | mismatched {s rest : List Char} {name found : String} :
      AtClosing form name s → IsName found → found ≠ name →
      (∀ c ∈ rest.head?, isNameChar c = false) →
      Shows form (.mismatched name found) s ('<' :: '/' :: (found.toList ++ rest))
  | closingEnd {s g rest : List Char} {name : String} :
      AtClosing form name s → IsGap g → rest.head? ≠ some '>' →
      Shows form .expectedCharacter (s ++ '<' :: '/' :: (name.toList ++ g)) rest
  | expectedRoot {p rest : List Char} :
      form = .document → IsProlog p → (∀ c ∈ rest.head?, isBlank c = false) →
      prologCloser? rest = none → rest.head? ≠ some '<' → Shows form .expectedRoot p rest
  | afterRoot {p u q rest : List Char} {e : Element} :
      form = .document → IsProlog p → ReadsElement e u → IsProlog q →
      (∀ c ∈ rest.head?, isBlank c = false) → prologCloser? rest = none → rest ≠ [] →
      Shows form .afterRoot (p ++ (u ++ q)) rest
  | prologItem {p rest : List Char} {closer : String} :
      form = .document → IsProlog p → prologCloser? rest = some closer →
      ¬ closer.toList <:+: rest → Shows form (.unterminated closer) p rest
  | epilogItem {p u q rest : List Char} {e : Element} {closer : String} :
      form = .document → IsProlog p → ReadsElement e u → IsProlog q →
      prologCloser? rest = some closer → ¬ closer.toList <:+: rest →
      Shows form (.unterminated closer) (p ++ (u ++ q)) rest
  | closingTag {w rest : List Char} {l : List Markup} :
      form = .content → ReadsContent l w → Shows form .closingTag w ('<' :: '/' :: rest)

/-- A reader of a text that begins where this is read stopped at a place in it that shows its fault.
Only around the root element there are items that may be open. -/
def Stop.Stands (stop : Stop) (form : Form) (Read : List Char → Prop) (s : List Char) : Prop :=
  (∀ closer, stop.fault ≠ .unterminated closer) ∧
    ∃ u, s = u ++ stop.rest ∧ ∀ before, Read before → Shows form stop.fault (before ++ u) stop.rest

variable {form : Form} {name : String} {s t u : List Char} {stop : Stop}

theorem Stop.Stands.append {Read Read' : List Char → Prop} (h : stop.Stands form Read' t)
    (hread : ∀ before, Read before → Read' (before ++ u)) : stop.Stands form Read (u ++ t) := by
  obtain ⟨hfault, v, rfl, hv⟩ := h
  refine ⟨hfault, u ++ v, (List.append_assoc ..).symm, fun before hbefore => ?_⟩
  rw [← List.append_assoc]
  exact hv _ (hread before hbefore)

theorem InTag.attributes {attributes : List (String × String)} {a : List Char}
    (h : InTag form name s) (ha : ReadsAttributes attributes a) : InTag form name (s ++ a) := by
  induction ha generalizing s with
  | nil => rwa [List.append_nil]
  | cons hu _ ih =>
    rw [← List.append_assoc]
    exact ih (h.attribute hu)

/-! ### Attributes -/

theorem eq_of_readName_eq_error (h : readName s = .error stop) :
    stop = ⟨s, .expectedName⟩ ∧ ∀ c ∈ s.head?, isNameChar c = false := by
  rw [readName] at h
  split at h
  · rename_i hnone
    refine ⟨(Except.error.inj h).symm, fun c hc => ?_⟩
    obtain ⟨r, rfl⟩ := List.head?_eq_some_iff.1 hc
    by_contra hname
    rw [List.takeWhile_cons_of_pos (by simpa using hname)] at hnone
    cases hnone
  · cases h

theorem eq_of_readChar_eq_error {c : Char} (h : readChar c s = .error stop) :
    stop = ⟨s, .expectedCharacter⟩ ∧ s.head? ≠ some c := by
  rw [readChar] at h
  split at h
  · cases h
  · rename_i hnone
    refine ⟨(Except.error.inj h).symm, fun hc => ?_⟩
    obtain ⟨r, rfl⟩ := List.head?_eq_some_iff.1 hc
    rw [Reading.char?, if_pos rfl] at hnone
    cases hnone

theorem of_readQuoted_eq_error (h : readQuoted s = some (.error stop)) :
    stop.fault = .unterminatedValue ∧ stop.rest = s ∧
      ∃ q body, s = q :: body ∧ (q = '"' ∨ q = '\'') ∧ q ∉ body := by
  cases s with
  | nil => cases h
  | cons q body =>
    rw [readQuoted] at h
    split at h
    · rename_i hq
      have h := Option.some.inj h
      split at h
      · cases h
      · rename_i hcut
        obtain rfl := Except.error.inj h
        have hlacks := cutAt?_eq_none_iff.1 hcut
        exact ⟨rfl, rfl, q, body, rfl, hq, mt (List.singleton_infix_iff q body).2 hlacks⟩
    · cases h

theorem stands_of_readAttribute (h : readAttribute s = .stopped stop) :
    stop.Stands form (InTag form name) s := by
  obtain ⟨before, hs, hbefore, -⟩ := exists_gap_append s
  rw [readAttribute] at h
  split at h
  · rename_i hlt
    split at h
    · cases h
    rename_i key hkey
    split at h
    · cases h
    rename_i equals hequals
    split at h
    · cases h
    · rename_i stop' hvalue
      obtain rfl := Attribute.stopped.inj h
      obtain ⟨hs₁, hname, -⟩ := eq_of_readName hkey
      obtain ⟨left, hs₂, hleft, -⟩ := exists_gap_append key.rest
      have hs₃ := eq_of_readChar hequals
      obtain ⟨right, hs₄, hright, -⟩ := exists_gap_append equals.rest
      obtain ⟨hfault, hrest, q, body, hs₅, hq, hbody⟩ := of_readQuoted_eq_error hvalue
      have hne : before ≠ [] := by
        rintro rfl
        have hlength := congrArg List.length hs
        rw [List.nil_append] at hlength
        omega
      refine ⟨fun closer hopen => ?_, before ++ (key.value.toList ++ (left ++ '=' :: right)), ?_,
        fun front hfront => ?_⟩
      · rw [hfault] at hopen
        cases hopen
      · calc s = before ++ (key.value.toList ++ key.rest) := by rw [← hs₁, ← hs]
          _ = before ++ (key.value.toList ++ (left ++ '=' :: equals.rest)) := by rw [← hs₃, ← hs₂]
          _ = before ++ (key.value.toList ++ (left ++ '=' :: (right ++ stop'.rest))) := by
            rw [hrest, ← hs₄]
          _ = _ := by simp
      · rw [hfault, hrest, hs₅]
        exact .value hfront hne hbefore hname hleft hright hq hbody
    · cases h
  · cases h

theorem stands_of_readAttributes (s : List Char) {stop : Stop}
    (h : readAttributes s = .error stop) : stop.Stands form (InTag form name) s := by
  rw [readAttributes] at h
  split at h
  · cases h
  · rename_i stop' hstopped
    obtain rfl := Except.error.inj h
    exact stands_of_readAttribute hstopped
  · rename_i first hfirst
    have hshorter := first.shorter
    obtain ⟨u, hs, hu⟩ := readsAttribute_of_readAttribute hfirst
    rcases of_bind_eq_error h with h | ⟨more, -, h⟩
    · rw [hs]
      exact (stands_of_readAttributes first.rest h).append fun before hbefore =>
        hbefore.attribute hu
    · cases h
termination_by s.length

/-! ### Elements and content -/

mutual

/-- An element is at fault in one of its tags, or within its content, or where its content ends
without a tag that closes it. -/
theorem stands_of_readElement (s : List Char) {stop : Stop} (hs : s.head? = some '<')
    (h : readElement s = .error stop) : stop.Stands form (AtElement form) s := by
  rw [readElement] at h
  rcases of_bind_eq_error h with h | ⟨opening, hopening, h⟩
  · exact absurd hs (eq_of_readChar_eq_error h).2
  have hs₁ := eq_of_readChar hopening
  rcases of_bind_eq_error h with h | ⟨tag, htag, h⟩
  · obtain ⟨rfl, hhead⟩ := eq_of_readName_eq_error h
    exact ⟨nofun, ['<'], hs₁, fun before hbefore => .openingName hbefore hhead⟩
  obtain ⟨hs₂, hname, -⟩ := eq_of_readName htag
  -- From here on the name is read.
  suffices hstands : stop.Stands form (InTag form tag.value) tag.rest by
    rw [hs₁, hs₂, ← List.cons_append]
    exact hstands.append fun before hbefore => .name hbefore hname
  rcases of_bind_eq_error h with h | ⟨⟨attributes, rest, hrest⟩, hattributes, h⟩
  · exact stands_of_readAttributes tag.rest h
  obtain ⟨a, hs₃, ha⟩ := readsAttributes_of_readAttributes tag.rest hattributes
  obtain ⟨g, hs₄, hg, -⟩ := exists_gap_append rest
  have hshorter := opening.shorter
  have hshorter' := tag.shorter
  have hgap := length_skipGap_le rest
  dsimp only at hs₃ h
  -- From here on the attributes are read.
  suffices hstands : stop.Stands form (InTag form tag.value) rest by
    rw [hs₃]
    exact hstands.append fun before hbefore => hbefore.attributes ha
  split at h
  · cases h
  rename_i hself
  rcases of_bind_eq_error h with h | ⟨bracket, hbracket, h⟩
  · obtain ⟨rfl, hend⟩ := eq_of_readChar_eq_error h
    refine ⟨nofun, g, hs₄, fun before hbefore => .openingEnd hbefore hg hend ?_⟩
    rintro ⟨r, hr⟩
    rw [after?_eq_some_iff.2 hr.symm] at hself
    cases hself
  have hshorter'' := bracket.shorter
  have hs₅ : rest = g ++ '>' :: bracket.rest := by
    rw [← eq_of_readChar hbracket]
    exact hs₄
  rcases of_bind_eq_error h with h | ⟨⟨children, inner, hinner⟩, hchildren, h⟩
  · have hstands := (stands_of_readContent bracket.rest h).append
      fun before (hbefore : InTag form tag.value before) => InContent.opening hbefore hg
    rwa [List.append_assoc, List.singleton_append, ← hs₅] at hstands
  obtain ⟨w, hs₆, hw, hend⟩ := readsContent_of_readContent bracket.rest hchildren
  dsimp only at hs₆ hend h
  -- From here on the content is read.
  suffices hstands : stop.Stands form (AtClosing form tag.value) inner by
    rw [hs₅, hs₆, ← List.cons_append, ← List.append_assoc]
    exact hstands.append fun before hbefore => .intro hbefore hg hw
  split at h
  · rename_i hunclosed
    obtain rfl := Except.error.inj h
    refine ⟨nofun, [], rfl, fun before hbefore => ?_⟩
    rcases hend with rfl | ⟨r, rfl⟩
    · rw [List.append_nil]
      exact .unclosed hbefore
    · cases hunclosed
  rename_i after hclose
  have hs₇ : inner = '<' :: '/' :: after := after?_eq_some_iff.1 hclose
  rcases of_bind_eq_error h with h | ⟨close, hfound, h⟩
  · obtain ⟨rfl, hhead⟩ := eq_of_readName_eq_error h
    exact ⟨nofun, ['<', '/'], hs₇, fun before hbefore => .closingName hbefore hhead⟩
  obtain ⟨hs₈, hfoundName, hfoundHead⟩ := eq_of_readName hfound
  rw [hs₈] at hs₇
  split at h
  · rename_i hne
    obtain rfl := Except.error.inj h
    refine ⟨nofun, [], rfl, fun before hbefore => ?_⟩
    dsimp only
    rw [hs₇, List.append_nil]
    exact .mismatched hbefore hfoundName hne hfoundHead
  rename_i hsame
  rcases of_bind_eq_error h with h | ⟨final, -, h⟩
  · obtain ⟨rfl, hfinal⟩ := eq_of_readChar_eq_error h
    obtain ⟨g', hs₉, hg', -⟩ := exists_gap_append close.rest
    rw [not_not.1 hsame] at hs₇
    refine ⟨nofun, '<' :: '/' :: (tag.value.toList ++ g'), ?_, fun before hbefore =>
      .closingEnd hbefore hg' hfinal⟩
    rw [hs₇]
    simpa using hs₉
  · cases h
termination_by (s.length, 0)

/-- Content is at fault where a comment or a section of raw text in it is not closed, or within an
element in it. -/
theorem stands_of_readContent (s : List Char) {stop : Stop} (h : readContent s = .error stop) :
    stop.Stands form (InContent form) s := by
  have hpart := describes_part s
  rw [readContent] at h
  split at h
  · cases h
  · rename_i rest hlt heq
    rw [heq] at hpart
    obtain ⟨body, hs, hbody⟩ := hpart
    rcases of_bind_eq_error h with h | ⟨nodes, -, h⟩
    · have hstands := (stands_of_readContent rest h).append
        fun before (hbefore : InContent form before) => hbefore.part (.comment hbody .nil)
      simpa only [hs, List.append_assoc, List.append_nil] using hstands
    · cases h
  · rename_i body heq
    rw [heq] at hpart
    obtain ⟨hs, hbody⟩ := hpart
    obtain rfl := Except.error.inj h
    exact ⟨nofun, _, hs, fun before hbefore => .comment hbefore hbody⟩
  · rename_i raw rest hlt heq
    rw [heq] at hpart
    obtain ⟨hs, hraw⟩ := hpart
    rcases of_bind_eq_error h with h | ⟨nodes, -, h⟩
    · have hstands := (stands_of_readContent rest h).append
        fun before (hbefore : InContent form before) => hbefore.part (.data hraw .nil)
      simpa only [hs, List.append_assoc, List.append_nil] using hstands
    · cases h
  · rename_i heq
    rw [heq] at hpart
    obtain ⟨body, hs, hbody⟩ := hpart
    obtain rfl := Except.error.inj h
    refine ⟨nofun, [], rfl, fun before hbefore => ?_⟩
    dsimp only
    rw [hs, List.append_nil]
    exact .data hbefore hbody
  · rename_i heq
    rw [heq] at hpart
    rcases of_bind_eq_error h with h | ⟨first, hfirst, h⟩
    · obtain ⟨hfault, u, hs, hshows⟩ := stands_of_readElement s hpart h
      exact ⟨hfault, u, hs, fun before hbefore => hshows before (.child hbefore)⟩
    have hshorter := first.shorter
    obtain ⟨u, hs, hu⟩ := readsElement_of_readElement s hfirst
    rcases of_bind_eq_error h with h | ⟨nodes, -, h⟩
    · have hstands := (stands_of_readContent first.rest h).append
        fun before (hbefore : InContent form before) => hbefore.part (.element hu .nil)
      rwa [List.append_nil, ← hs] at hstands
    · cases h
  · rename_i raw rest hlt heq
    rw [heq] at hpart
    obtain ⟨hs, hraw, -⟩ := hpart
    rcases of_bind_eq_error h with h | ⟨nodes, -, h⟩
    · have hstands := (stands_of_readContent rest h).append
        fun before (hbefore : InContent form before) =>
          hbefore.part (.text (w := []) hraw nofun .nil)
      rwa [List.append_nil, ← hs] at hstands
    · cases h
termination_by (s.length, 1)

end

/-! ### Items that are not closed -/

/-- The item that is not closed stands behind complete ones, or at the beginning. Its position is
counted from where these end. -/
theorem exists_of_skipProlog_eq_error (s : List Char) {failure : Failure}
    (h : skipProlog s = .error failure) :
    ∃ p b rest closer, s = p ++ (b ++ rest) ∧ IsProlog p ∧ (p = [] ∨ ∃ u, p = u ++ ['>']) ∧
      IsBlank b ∧ prologCloser? rest = some closer ∧ ¬ closer.toList <:+: rest ∧
      failure = .markup (byteLength b) (.unterminated closer) := by
  obtain ⟨b, t, hs, hb, ⟨-, -, hstep⟩ | ⟨closer, hcloser, hopen, hstep⟩ |
    ⟨item, tail, rfl, hitem, hshorter, hstep⟩⟩ := skipProlog_cases s
  · rw [hstep] at h
    cases h
  · obtain rfl := Except.error.inj (hstep.symm.trans h)
    exact ⟨[], b, t, closer, hs, isProlog_nil, .inl rfl, hb, hcloser, hopen, rfl⟩
  · rw [hstep] at h
    obtain ⟨p, b', rest, closer, rfl, hp, hend, hrest⟩ := exists_of_skipProlog_eq_error tail h
    refine ⟨_, b', rest, closer, ?_, .item hb hitem hp, .inr ?_, hrest⟩
    · rw [hs, List.append_assoc, List.append_assoc]
    · obtain ⟨v, rfl⟩ := hitem.exists_concat
      rcases hend with rfl | ⟨u, rfl⟩
      · exact ⟨b ++ v, by simp⟩
      · exact ⟨b ++ (v ++ ['>'] ++ u), by simp⟩
termination_by s.length

/-! ### Positions -/

/-- A failure is a fault of markup, at a place in the source that shows it. Its position is that
place, unless the fault is an item around the root element that is not closed. Then the position is
the number of bytes of the blanks before the item, which is its place just if nothing else stands
before it. -/
def PointsInto (form : Form) (source : List Char) (failure : Failure) : Prop :=
  ∃ position fault front rest, failure = .markup position fault ∧ source = front ++ rest ∧
    Shows form fault front rest ∧ position ≤ byteLength source ∧
    ((∀ closer, fault ≠ .unterminated closer) → cutAtByte? position source = some (front, rest)) ∧
    ∀ closer, fault = .unterminated closer →
      position = byteLength (front.rtakeWhile isBlank) ∧
        (cutAtByte? position source = some (front, rest) ↔ IsBlank front)

variable {source front rest : List Char}

theorem Stop.pointsInto (hsource : source = front ++ stop.rest)
    (hshows : Shows form stop.fault front stop.rest)
    (hfault : ∀ closer, stop.fault ≠ .unterminated closer) :
    PointsInto form source (stop.failure source) := by
  have hposition : byteLength source - byteLength stop.rest = byteLength front := by
    rw [hsource, byteLength_append, Nat.add_sub_cancel]
  refine ⟨_, _, front, stop.rest, rfl, hsource, hshows, Nat.sub_le .., fun _ => ?_,
    fun closer h => absurd h (hfault closer)⟩
  rw [hposition, hsource, cutAtByte?_append]

theorem rtakeWhile_append {p b : List Char} (hp : p = [] ∨ ∃ u, p = u ++ ['>']) (hb : IsBlank b) :
    (p ++ b).rtakeWhile isBlank = b := by
  have hfirst : ∀ c ∈ p.reverse.head?, isBlank c = false := by
    rcases hp with rfl | ⟨u, rfl⟩
    · nofun
    · rw [List.reverse_append]
      exact forall_mem_head?_cons u.reverse (by decide)
  have hblank : ∀ c ∈ b.reverse, isBlank c = true := fun c hc => hb c (List.mem_reverse.1 hc)
  rw [List.rtakeWhile, List.reverse_append, (takeWhile_dropWhile_append hblank hfirst).1,
    List.reverse_reverse]

theorem pointsInto_of_unterminated {p b : List Char} {closer : String}
    (hp : p = [] ∨ ∃ u, p = u ++ ['>']) (hb : IsBlank b) (hsource : source = p ++ (b ++ rest))
    (hshows : Shows form (.unterminated closer) (p ++ b) rest) :
    PointsInto form source (.markup (byteLength b) (.unterminated closer)) := by
  have hfront := rtakeWhile_append hp hb
  have hsplit : source = (p ++ b) ++ rest := by
    rw [hsource, List.append_assoc]
  refine ⟨_, _, p ++ b, rest, rfl, hsplit, hshows, ?_, fun h => absurd rfl (h closer),
    fun _ _ => ⟨by rw [hfront], ?_⟩⟩
  · rw [hsource, byteLength_append, byteLength_append]
    omega
  · rcases hp with rfl | ⟨u, rfl⟩
    · rw [hsplit, List.nil_append]
      exact iff_of_true (cutAtByte?_append b rest) hb
    · refine iff_of_false (fun hcut => ?_) fun hblank => ?_
      · obtain ⟨-, hlength⟩ := eq_of_cutAtByte? hcut
        have hbracket : byteLength ['>'] = 1 := by decide
        rw [byteLength_append, byteLength_append, hbracket] at hlength
        omega
      · exact absurd (hblank '>' (by simp)) (by decide)

/-! ### Failures of the reader -/

theorem eq_failure_of_mapError {α : Type} {x : Except Stop α} {failure : Failure}
    (h : x.mapError (Stop.failure source) = .error failure) :
    ∃ stop, x = .error stop ∧ failure = stop.failure source := by
  cases x with
  | error stop => exact ⟨stop, rfl, (Except.error.inj h).symm⟩
  | ok a => cases h

theorem Stop.Stands.pointsInto {Read : List Char → Prop} (h : stop.Stands form Read s)
    (hread : Read front) (hsource : source = front ++ s) :
    PointsInto form source (stop.failure source) := by
  obtain ⟨hfault, u, rfl, hshows⟩ := h
  exact Stop.pointsInto (by rw [hsource, List.append_assoc]) (hshows front hread) hfault

theorem pointsInto_of_parseDocument {source : String} {failure : Failure}
    (h : parseDocument source = .error failure) : PointsInto .document source.toList failure := by
  rw [parseDocument] at h
  rcases of_bind_eq_error h with h | ⟨rest, hrest, h⟩
  · obtain ⟨p, b, rest, closer, hsource, hprolog, hp, hb, hcloser, hopen, rfl⟩ :=
      exists_of_skipProlog_eq_error _ h
    exact pointsInto_of_unterminated hp hb hsource
      (.prologItem rfl (hprolog.append_iff.2 (.blanks hb)) hcloser hopen)
  obtain ⟨p, hp, hprolog, hcloser, hblank⟩ := exists_of_skipProlog _ hrest
  dsimp only at h
  split at h
  · rename_i hroot
    obtain rfl := Except.error.inj h
    exact Stop.pointsInto hp (.expectedRoot rfl hprolog hblank hcloser hroot)
      fun closer hopen => by cases hopen
  rename_i hhead
  rcases of_bind_eq_error h with h | ⟨root, hroot, h⟩
  · obtain ⟨stop, hstop, rfl⟩ := eq_failure_of_mapError h
    exact (stands_of_readElement rest (not_not.1 hhead) hstop).pointsInto (.root rfl hprolog) hp
  obtain ⟨u, hu, helement⟩ := readsElement_of_readElement rest (eq_ok_of_mapError hroot)
  rcases of_bind_eq_error h with h | ⟨after, hafter, h⟩
  · obtain ⟨q, b, item, closer, hrest, hepilog, hq, hb, hcloser, hopen, rfl⟩ :=
      exists_of_skipProlog_eq_error _ h
    have hend : p ++ (u ++ q) = [] ∨ ∃ v, p ++ (u ++ q) = v ++ ['>'] := by
      rcases hq with rfl | ⟨v, rfl⟩
      · obtain ⟨v, rfl⟩ := helement.exists_concat
        exact .inr ⟨p ++ v, by simp⟩
      · exact .inr ⟨p ++ (u ++ v), by simp⟩
    have hsource : source.toList = p ++ (u ++ q) ++ (b ++ item) := by
      rw [hp, hu, hrest]
      simp
    have hshows : Shows .document _ _ _ :=
      .epilogItem rfl hprolog helement (hepilog.append_iff.2 (.blanks hb)) hcloser hopen
    rw [← List.append_assoc u, ← List.append_assoc p] at hshows
    exact pointsInto_of_unterminated hend hb hsource hshows
  obtain ⟨q, hrest, hepilog, hnone, hhead'⟩ := exists_of_skipProlog _ hafter
  split at h
  · rename_i hne
    obtain rfl := Except.error.inj h
    have hsource : source.toList = p ++ (u ++ q) ++ after := by
      rw [hp, hu, hrest]
      simp
    exact Stop.pointsInto hsource
      (.afterRoot rfl hprolog helement hepilog hhead' hnone (by simpa using hne))
      fun closer hopen => by cases hopen
  · cases h

theorem pointsInto_of_parseContent {source : String} {failure : Failure}
    (h : parseContent source = .error failure) : PointsInto .content source.toList failure := by
  rw [parseContent] at h
  rcases of_bind_eq_error h with h | ⟨⟨nodes, rest, hrest⟩, hread, h⟩
  · obtain ⟨stop, hstop, rfl⟩ := eq_failure_of_mapError h
    exact (stands_of_readContent source.toList hstop).pointsInto (.beginning rfl)
      (List.nil_append _).symm
  obtain ⟨w, hsource, hw, hend⟩ := readsContent_of_readContent _ (eq_ok_of_mapError hread)
  dsimp only at hsource hend h
  split at h
  · rename_i hne
    obtain rfl := Except.error.inj h
    rcases hend with rfl | ⟨r, rfl⟩
    · cases hne
    · exact Stop.pointsInto hsource (.closingTag rfl hw) nofun
  · cases h

/-- Every failure to read a document or content points into it: at the place that shows its fault,
or, for an item around the root element that is not closed, behind as many bytes as the blanks have
that stand before it. -/
theorem fault_position (source : String) (failure : Failure) :
    (parseDocument source = .error failure → PointsInto .document source.toList failure) ∧
      (parseContent source = .error failure → PointsInto .content source.toList failure) :=
  ⟨pointsInto_of_parseDocument, pointsInto_of_parseContent⟩

/-- Behind a complete item the position of an open one counts only the blanks between them. -/
theorem parseDocument_of_open_item {source : String} {b : List Char} {closer : String}
    (hs : IsItem s) (hb : IsBlank b) (hsource : source.toList = s ++ (b ++ t))
    (hcloser : prologCloser? t = some closer) (hopen : cutAt? closer.toList t = none) :
    parseDocument source = .error (.markup (byteLength b) (.unterminated closer)) := by
  have htrim : trimStart (b ++ t) = t := by
    rw [trimStart_blank_append hb, trimStart_of_prologCloser? hcloser]
  have hskip : skipProlog source.toList = skipProlog (b ++ t) := by
    rw [hsource]
    exact skipProlog_item isBlank_nil hs (b ++ t)
  rw [parseDocument, hskip, skipProlog_of_unterminated (by rwa [htrim]) (by rwa [htrim]), htrim,
    byteLength_append, Nat.add_sub_cancel]
  rfl

theorem parseDocument_declaration_comment :
    parseDocument "<?xml?> <!-- x" = .error (.markup 1 (.unterminated "-->")) :=
  parseDocument_of_open_item (s := "<?xml?>".toList) (b := [' ']) (t := "<!-- x".toList)
    ⟨"?>", "<?xml".toList, by decide⟩ (List.forall_mem_singleton.2 rfl) rfl rfl rfl

theorem parseContent_closing_tag :
    parseContent "<a/></b>" = .error (.markup 4 .closingTag) := by
  have helement : ReadsElement ⟨"a", [], []⟩ "<a/>".toList :=
    .closed (by decide) .nil .nil
  obtain ⟨_, hread⟩ := (ReadsContent.element helement .nil).read (s := "<a/></b>".toList)
    (t := "</b>".toList) (.inr ⟨_, rfl⟩) rfl
  rw [parseContent, hread]
  rfl

theorem fault_position_of_open_comment :
    (parseDocument "<?xml?> <!-- x" = .error (.markup 1 (.unterminated "-->")) ∧
        PointsInto .document "<?xml?> <!-- x".toList (.markup 1 (.unterminated "-->"))) ∧
      parseContent "<a/></b>" = .error (.markup 4 .closingTag) ∧
        PointsInto .content "<a/></b>".toList (.markup 4 .closingTag) :=
  ⟨⟨parseDocument_declaration_comment,
      (fault_position "<?xml?> <!-- x" _).1 parseDocument_declaration_comment⟩,
    parseContent_closing_tag, (fault_position "<a/></b>" _).2 parseContent_closing_tag⟩

/-- The position of a comment that is not closed is neither the place where it stands nor, always,
a place between two characters. -/
theorem open_comment_misplaced :
    (parseDocument "<?xml?> <!-- x" = .error (.markup 1 (.unterminated "-->")) ∧
        cutAtByte? 8 "<?xml?> <!-- x".toList = some ("<?xml?> ".toList, "<!-- x".toList)) ∧
      parseDocument "<!é>   <!-- x" = .error (.markup 3 (.unterminated "-->")) ∧
        cutAtByte? 3 "<!é>   <!-- x".toList = none := by
  refine ⟨⟨parseDocument_declaration_comment, by decide⟩, ?_, by decide⟩
  exact parseDocument_of_open_item (s := "<!é>".toList) (b := [' ', ' ', ' '])
    (t := "<!-- x".toList) ⟨">", "<!é".toList, by decide⟩ (by simp [IsBlank]; decide) rfl rfl rfl

end Markup

end SqlTemplate
