import SqlTemplate.Proofs.DocumentLoading
import SqlTemplate.Proofs.InclusionGraph

/-!
# The namespace of a reference in a fragment

A reference without a point is local to a namespace. The expansion of a statement takes the one of
the statement, also for the references that stand in fragments of other namespaces. This file
compares it with an expansion in which a reference is local to the namespace of the fragment in
which it stands.

## Main definitions

* `Inclusion.spliceBy`, `Inclusion.applyBy` : the expansion where the fragments that are open decide
  the namespace of a reference.
* `Inclusion.atHome` : the namespace of the innermost fragment that is open.
* `Inclusion.Meets` : the references that an expansion comes to, with the properties in their
  places.

## Main results

* `Inclusion.apply_eq_applyBy` : two ways to read references come to the same where they agree on
  those that are met.
* `Inclusion.references_at_home_iff` : where references in fragments mean what they mean at home.
* `Draft.local_reference_captured` : a reference that means something else away from home.
-/

namespace SqlTemplate

namespace Inclusion

/-- The content in the place of an `include` element, where the fragments that are open decide the
namespace of its reference. -/
def spliceBy (d : Draft) (space : List String → String) (opened : List String)
    (properties : Properties) (e : Element) : Except Failure (List Markup) := do
  let reference := substitute properties (← e.required "refid")
  let id := qualifyReference (space opened) reference
  if ho : opened.contains id then throw (.circularInclude id)
  else match hf : d.fragment? id with
    | none => throw (.fragmentNotFound reference)
    | some fragment =>
      let scope ← within properties e
      have := closed_lt hf ho
      expandAll (fun inner => spliceBy d space (id :: opened) scope inner) scope true
        fragment.children
termination_by closed d opened

/-- The children of a statement with their `include` elements replaced in this way. -/
def applyBy (d : Draft) (space : List String → String) (content : List Markup) :
    Except Failure (List Markup) :=
  expandAll (spliceBy d space [] []) [] false content

/-- The namespace of the innermost fragment that is open, else that of the statement. -/
def atHome (home : String → String) (space : String) : List String → String
  | [] => space
  | id :: _ => home id

/-- The expansion of a statement of a namespace comes to a reference, inside the fragments that are
open. The properties in effect are in the places of their markers in it. -/
def Meets (d : Draft) (space : String) (content : List Markup) (opened : List String)
    (reference : String) : Prop :=
  ∃ properties body e raw, Enters d space content opened properties body ∧
    e ∈ includesAll body ∧ e.required "refid" = .ok raw ∧ reference = substitute properties raw

/-- A reference with a point has its namespace in it. -/
def IsQualified (reference : String) : Prop :=
  '.' ∈ reference.toList

instance (reference : String) : Decidable (IsQualified reference) :=
  inferInstanceAs (Decidable ('.' ∈ reference.toList))

section Content

variable {splice splice' : Element → Except Failure (List Markup)} {properties : Properties}
  {inFragment : Bool}

mutual

theorem expand_congr : ∀ (m : Markup), (∀ e ∈ includes m, splice e = splice' e) →
    expand splice properties inFragment m = expand splice' properties inFragment m
  | .text s, _ => by rw [expand, expand]
  | .element name attributes children, h => by
    rw [includes] at h
    rw [expand, expand]
    split
    · rename_i hname
      rw [if_pos hname] at h
      exact h _ List.mem_cons_self
    · rename_i hname
      rw [if_neg hname] at h
      rw [expandAll_congr children h]

/-- Content is expanded alike where its `include` elements are. -/
theorem expandAll_congr : ∀ (content : List Markup),
    (∀ e ∈ includesAll content, splice e = splice' e) →
      expandAll splice properties inFragment content =
        expandAll splice' properties inFragment content
  | [], _ => by rw [expandAll, expandAll]
  | m :: rest, h => by
    rw [includesAll, List.forall_mem_append] at h
    rw [expandAll, expandAll, expand_congr m h.1, expandAll_congr rest h.2]

end

end Content

section Statements

variable {d : Draft} {space : String} {content : List Markup}

theorem qualifyReference_of_isQualified {reference : String} (h : IsQualified reference)
    (space space' : String) :
    qualifyReference space reference = qualifyReference space' reference := by
  rw [qualifyReference, qualifyReference, if_pos (List.contains_iff_mem.2 h),
    if_pos (List.contains_iff_mem.2 h)]

theorem qualifyReference_eq_iff (reference space space' : String) :
    qualifyReference space reference = qualifyReference space' reference ↔
      IsQualified reference ∨ space = space' := by
  by_cases h : IsQualified reference
  · exact iff_of_true (qualifyReference_of_isQualified h ..) (Or.inl h)
  · rw [qualifyReference, qualifyReference, if_neg (mt List.contains_iff_mem.1 h),
      if_neg (mt List.contains_iff_mem.1 h), or_iff_right h]
    refine ⟨fun heq => ?_, fun heq => by rw [heq]⟩
    have hlist := congrArg String.toList heq
    exact String.toList_inj.1 (by simpa [String.toList_append] using hlist)

theorem spliceBy_eq (d : Draft) (space : List String → String) (opened : List String)
    (properties : Properties) (e : Element) :
    spliceBy d space opened properties e = e.required "refid" >>= fun raw =>
      if qualifyReference (space opened) (substitute properties raw) ∈ opened then
        .error (.circularInclude (qualifyReference (space opened) (substitute properties raw)))
      else match d.fragment? (qualifyReference (space opened) (substitute properties raw)) with
        | none => .error (.fragmentNotFound (substitute properties raw))
        | some fragment => within properties e >>= fun scope =>
          expandAll (spliceBy d space
            (qualifyReference (space opened) (substitute properties raw) :: opened) scope)
            scope true fragment.children := by
  rw [spliceBy]
  exact congrArg (Except.bind (e.required "refid")) (funext fun raw =>
    opening_eq d opened _ _ _ fun _ _ _ => rfl)

/-- An `include` element in a body that an expansion comes to is replaced by the same in both ways,
if they agree on the references that are met. -/
theorem splice_eq_spliceBy {space' : List String → String}
    (hagree : ∀ opened reference, Meets d space content opened reference →
      qualifyReference space reference = qualifyReference (space' opened) reference)
    {opened : List String} {properties : Properties} {body : List Markup} {e : Element}
    (hbody : Enters d space content opened properties body) (he : e ∈ includesAll body) :
    splice d space opened properties e = spliceBy d space' opened properties e := by
  induction hclosed : closed d opened using Nat.strongRecOn
    generalizing opened properties body e with
  | ind n ih =>
    rw [splice_eq, spliceBy_eq]
    cases hraw : e.required "refid" with
    | error failure => rfl
    | ok raw =>
      dsimp only [bind, Except.bind]
      rw [← hagree opened _ ⟨properties, body, e, raw, hbody, he, hraw, rfl⟩]
      split
      · rfl
      rename_i hopen
      cases hfragment : d.fragment? (qualifyReference space (substitute properties raw)) with
      | none => rfl
      | some fragment =>
        cases hscope : within properties e with
        | error failure => rfl
        | ok scope =>
          have hlt := closed_lt_of_not_mem hfragment hopen
          exact expandAll_congr fragment.children fun inner hinner =>
            ih _ (hclosed ▸ hlt) (hbody.enter he hraw hopen hfragment hscope) hinner rfl

/-- Statements are expanded alike in two ways that agree on the references that are met. -/
theorem apply_eq_applyBy {space' : List String → String}
    (hagree : ∀ opened reference, Meets d space content opened reference →
      qualifyReference space reference = qualifyReference (space' opened) reference) :
    apply d space content = applyBy d space' content :=
  expandAll_congr content fun _ he => splice_eq_spliceBy hagree .start he

/-- Where a statement is expanded, so is each `include` element in each body that is entered. -/
theorem Enters.exists_splice {out : List Markup} (hout : apply d space content = .ok out)
    {opened : List String} {properties : Properties} {body : List Markup}
    (hbody : Enters d space content opened properties body) {e : Element}
    (he : e ∈ includesAll body) : ∃ inner, splice d space opened properties e = .ok inner := by
  induction hbody generalizing e with
  | start => exact (exists_expandAll_iff content).1 ⟨out, hout⟩ e he
  | enter hbody he' hraw hopen hfragment hscope ih =>
    obtain ⟨inner, hinner⟩ := ih he'
    obtain ⟨raw, fragment, scope, hraw', -, hfragment', hscope', hinner⟩ :=
      splice_eq_ok_iff.1 hinner
    obtain rfl := Except.ok.inj (hraw.symm.trans hraw')
    obtain rfl := Option.some.inj (hfragment.symm.trans hfragment')
    obtain rfl := Except.ok.inj (hscope.symm.trans hscope')
    exact (exists_expandAll_iff _).1 ⟨inner, hinner⟩ e he

/-- Where a statement is expanded, each reference that is met leads to a fragment. -/
theorem Meets.isSome_fragment? {out : List Markup} (hout : apply d space content = .ok out)
    {opened : List String} {reference : String} (h : Meets d space content opened reference) :
    (d.fragment? (qualifyReference space reference)).isSome = true := by
  obtain ⟨properties, body, e, raw, hbody, he, hraw, rfl⟩ := h
  obtain ⟨inner, hinner⟩ := hbody.exists_splice hout he
  obtain ⟨raw', fragment, -, hraw', -, hfragment, -⟩ := splice_eq_ok_iff.1 hinner
  obtain rfl := Except.ok.inj (hraw.symm.trans hraw')
  rw [hfragment]
  rfl

/-- Where a statement is expanded, each reference that it comes to is found, and if it is local,
then in the namespace of the statement, whatever the fragment in which it stands.

So the references are resolved as at home, in the namespaces of the fragments in which they stand,
if and only if each of them has a point or stands in the statement, or in a fragment of its
namespace. Then the expansion is that at home; and if every reference has a point, statements of all
namespaces are expanded alike. -/
theorem references_at_home_iff (d : Draft) (home : String → String) (space : String)
    (content : List Markup) :
    (∀ out, apply d space content = .ok out → ∀ opened reference,
      Meets d space content opened reference →
        (d.fragment? (qualifyReference space reference)).isSome = true) ∧
    ((∀ opened reference, Meets d space content opened reference →
        qualifyReference space reference = qualifyReference (atHome home space opened) reference) ↔
      ∀ opened reference, Meets d space content opened reference →
        IsQualified reference ∨ space = atHome home space opened) ∧
    ((∀ opened reference, Meets d space content opened reference →
        IsQualified reference ∨ space = atHome home space opened) →
      apply d space content = applyBy d (atHome home space) content) ∧
    ((∀ opened reference, Meets d space content opened reference → IsQualified reference) →
      ∀ other, apply d space content = apply d other content) := by
  refine ⟨fun out hout opened reference h => h.isSome_fragment? hout, ?_, fun hhome => ?_,
    fun hqualified other => ?_⟩
  · simp only [qualifyReference_eq_iff]
  · exact apply_eq_applyBy fun opened reference h =>
      (qualifyReference_eq_iff reference space _).2 (hhome opened reference h)
  · calc apply d space content
      _ = applyBy d (fun _ => other) content := apply_eq_applyBy fun opened reference h =>
        qualifyReference_of_isQualified (hqualified opened reference h) space other
      _ = apply d other content := (apply_eq_applyBy fun _ _ _ => rfl).symm

end Statements

namespace visiting

open sharing (including)

/-- A fragment of a namespace that includes one of another namespace, where a local reference
follows. -/
def draft : Draft where
  fragments := [
    ("m.g", { fallback := some ⟨"sql", [], [(including "h").markup]⟩ }),
    ("m.h", { fallback := some ⟨"sql", [], [.text "h"]⟩ }),
    ("n.f", { fallback := some ⟨"sql", [], [.text "f", (including "m.g").markup]⟩ })]

/-- The namespaces of the fragments. -/
def home (id : String) : String :=
  if id = "n.f" then "n" else "m"

/-- The content of a statement. -/
def content : List Markup :=
  [(including "n.f").markup]

theorem apply_eq : apply draft "m" content = .ok [.text "fh"] := by
  cbv

/-- The bodies that the expansion of the statement comes to, and the fragments that are open. -/
def bodies : List (List String × List Markup) :=
  [([], content), (["n.f"], [.text "f", (including "m.g").markup]),
    (["m.g", "n.f"], [(including "h").markup]), (["m.h", "m.g", "n.f"], [.text "h"])]

theorem qualifyReference_eq : qualifyReference "m" "n.f" = "n.f" ∧
    qualifyReference "m" "m.g" = "m.g" ∧ qualifyReference "m" "h" = "m.h" := by
  decide

theorem fragment?_eq :
    draft.fragment? "n.f" = some ⟨"sql", [], [.text "f", (including "m.g").markup]⟩ ∧
    draft.fragment? "m.g" = some ⟨"sql", [], [(including "h").markup]⟩ ∧
    draft.fragment? "m.h" = some ⟨"sql", [], [.text "h"]⟩ := by
  refine ⟨?_, ?_, ?_⟩ <;> cbv

/-- From a body with one reference, the expansion goes on to the fragment of the reference. -/
theorem mem_bodies_of_enter {opened : List String} {scope : Properties} {e fragment next : Element}
    {raw reference id : String} (hid : qualifyReference "m" reference = id)
    (hnext : draft.fragment? id = some next) (he : e ∈ [including reference])
    (hraw : e.required "refid" = .ok raw)
    (hfragment : draft.fragment? (qualifyReference "m" (substitute [] raw)) = some fragment)
    (hscope : within [] e = .ok scope) (hmem : (id :: opened, next.children) ∈ bodies) :
    scope = [] ∧
      (qualifyReference "m" (substitute [] raw) :: opened, fragment.children) ∈ bodies := by
  obtain rfl := List.mem_singleton.1 he
  obtain rfl : reference = raw := Except.ok.inj hraw
  have hreference : qualifyReference "m" (substitute [] reference) = id := hid
  rw [hreference] at hfragment ⊢
  obtain rfl := Option.some.inj (hnext.symm.trans hfragment)
  exact ⟨(Except.ok.inj hscope).symm, hmem⟩

theorem mem_bodies {opened : List String} {properties : Properties} {body : List Markup}
    (h : Enters draft "m" content opened properties body) :
    properties = [] ∧ (opened, body) ∈ bodies := by
  obtain ⟨hf, hg, hh⟩ := qualifyReference_eq
  obtain ⟨hf', hg', hh'⟩ := fragment?_eq
  induction h with
  | start => exact ⟨rfl, List.mem_cons_self⟩
  | enter hbody he hraw hopen hfragment hscope ih =>
    obtain ⟨rfl, hmem⟩ := ih
    simp only [bodies, List.mem_cons, Prod.mk.injEq, List.not_mem_nil, or_false] at hmem
    rcases hmem with ⟨rfl, rfl⟩ | ⟨rfl, rfl⟩ | ⟨rfl, rfl⟩ | ⟨rfl, rfl⟩
    · exact mem_bodies_of_enter hf hf' he hraw hfragment hscope (by simp [bodies])
    · exact mem_bodies_of_enter hg hg' he hraw hfragment hscope (by simp [bodies])
    · exact mem_bodies_of_enter hh hh' he hraw hfragment hscope (by simp [bodies])
    · cases he

/-- The local reference is met in a fragment of the namespace of the statement. -/
theorem home_of_meets {opened : List String} {reference : String}
    (h : Meets draft "m" content opened reference) :
    IsQualified reference ∨ "m" = atHome home "m" opened := by
  obtain ⟨properties, body, e, raw, hbody, he, hraw, rfl⟩ := h
  obtain ⟨rfl, hmem⟩ := mem_bodies hbody
  simp only [bodies, List.mem_cons, Prod.mk.injEq, List.not_mem_nil, or_false] at hmem
  rcases hmem with ⟨rfl, rfl⟩ | ⟨rfl, rfl⟩ | ⟨rfl, rfl⟩ | ⟨rfl, rfl⟩
  · exact Or.inr rfl
  · obtain rfl := List.mem_singleton.1 he
    obtain rfl : "m.g" = raw := Except.ok.inj hraw
    exact Or.inl (by decide)
  · exact Or.inr (by decide)
  · cases he

/-- The content of a statement that has nothing but a reference with a point. -/
def direct : List Markup :=
  [(including "m.h").markup]

theorem isQualified_of_meets {opened : List String} {reference : String}
    (h : Meets draft "m" direct opened reference) : IsQualified reference := by
  obtain ⟨properties, body, e, raw, hbody, he, hraw, rfl⟩ := h
  have hbodies : properties = [] ∧ (body = direct ∨ body = [.text "h"]) := by
    clear he hraw
    induction hbody with
    | start => exact ⟨rfl, Or.inl rfl⟩
    | enter hbody he hraw hopen hfragment hscope ih =>
      obtain ⟨rfl, rfl | rfl⟩ := ih
      · obtain rfl := List.mem_singleton.1 he
        obtain rfl := Except.ok.inj hraw
        obtain rfl := Option.some.inj (fragment?_eq.2.2.symm.trans hfragment)
        exact ⟨(Except.ok.inj hscope).symm, Or.inr rfl⟩
      · cases he
  obtain ⟨rfl, rfl | rfl⟩ := hbodies
  · obtain rfl := List.mem_singleton.1 he
    obtain rfl : "m.h" = raw := Except.ok.inj hraw
    decide
  · cases he

end visiting

open visiting in
open sharing (including) in
/-- On the way through a fragment of another namespace, a statement comes to a local reference in a
fragment of its own. Where there is no local reference, the namespace of the statement makes no
difference. -/
theorem references_at_home_iff_visiting :
    (∀ opened reference, Meets draft "m" content opened reference →
      IsQualified reference ∨ "m" = atHome home "m" opened) ∧
      Meets draft "m" content ["m.g", "n.f"] "h" ∧
      (draft.fragment? (qualifyReference "m" "h")).isSome = true ∧
      applyBy draft (atHome home "m") content = .ok [.text "fh"] ∧
      (∀ opened reference, Meets draft "m" direct opened reference → IsQualified reference) ∧
      apply draft "m" direct = apply draft "n" direct := by
  obtain ⟨hfound, -, hhome, -⟩ := references_at_home_iff draft home "m" content
  have hmeets : Meets draft "m" content ["m.g", "n.f"] "h" := by
    obtain ⟨hf, hg, -⟩ := fragment?_eq
    have hrequired (reference : String) :
        (including reference).required "refid" = .ok reference := rfl
    have hfirst : Enters draft "m" content ["n.f"] [] [.text "f", (including "m.g").markup] :=
      Enters.start.enter List.mem_cons_self (hrequired "n.f") List.not_mem_nil hf rfl
    have hsecond : Enters draft "m" content ["m.g", "n.f"] [] [(including "h").markup] :=
      hfirst.enter List.mem_cons_self (hrequired "m.g") (by decide) hg rfl
    exact ⟨[], _, _, _, hsecond, List.mem_cons_self, rfl, rfl⟩
  obtain ⟨-, -, -, hsame⟩ := references_at_home_iff draft home "m" direct
  refine ⟨fun _ _ => home_of_meets, hmeets, hfound _ apply_eq _ _ hmeets, ?_,
    fun _ _ => isQualified_of_meets, hsame (fun _ _ => isQualified_of_meets) "n"⟩
  rw [← hhome fun _ _ => home_of_meets, apply_eq]

end Inclusion

namespace capturing

open Inclusion.sharing (including)

/-- A fragment. -/
def fragment : Element where
  name := "sql"
  attributes := [("id", "r")]
  children := [.text "home"]

/-- A fragment that includes it by its local name. -/
def middle : Element where
  name := "sql"
  attributes := [("id", "f")]
  children := [(including "r").markup]

/-- A fragment of the same name, of another namespace. -/
def namesake : Element where
  name := "sql"
  attributes := [("id", "r")]
  children := [.text "away"]

/-- A statement that includes the second fragment. -/
def select : Element where
  name := "select"
  attributes := [("id", "s")]
  children := [(including "n.f").markup]

/-- The document of the first two fragments, with such a statement. -/
def first : Document where
  source := "<mapper namespace=\"n\"><sql id=\"r\">home</sql>" ++
    "<sql id=\"f\"><include refid=\"r\"></include></sql>" ++
    "<select id=\"s\"><include refid=\"n.f\"></include></select></mapper>"
  resource := "n.xml"

/-- The document of the namesake, with such a statement. -/
def second : Document where
  source := "<mapper namespace=\"m\"><sql id=\"r\">away</sql>" ++
    "<select id=\"s\"><include refid=\"n.f\"></include></select></mapper>"
  resource := "m.xml"

/-- A document with such a statement alone. -/
def third : Document where
  source := "<mapper namespace=\"k\">" ++
    "<select id=\"s\"><include refid=\"n.f\"></include></select></mapper>"
  resource := "k.xml"

set_option maxRecDepth 4000 in
theorem content_first : Loading.content first.source first.resource =
    .ok ("n", [fragment, middle, select]) :=
  Loading.content_write (by decide) (by decide) (by decide)

theorem content_second : Loading.content second.source second.resource =
    .ok ("m", [namesake, select]) :=
  Loading.content_write (by decide) (by decide) (by decide)

theorem content_third : Loading.content third.source third.resource = .ok ("k", [select]) :=
  Loading.content_write (by decide) (by decide) (by decide)

end capturing

open capturing in
set_option maxRecDepth 20000 in
/-- Three statements include one fragment. The local reference in it leads each of them to another
fragment, or to none. -/
theorem Draft.local_reference_captured :
    let sql (docs : List Document) (id : String) : Except Failure String := do
      let c ← configure {} docs
      let bound ← c.bind id .null
      return bound.sql
    sql [first, second] "n.s" = .ok "home" ∧ sql [first, second] "m.s" = .ok "away" ∧
      sql [first, third] "k.s" = .error (.fragmentNotFound "r") := by
  refine ⟨?_, ?_, ?_⟩
  · simp only [configure, Loading.documents, bind_apply, Loading.document_apply content_first,
      Loading.document_apply content_second]
    cbv
  · simp only [configure, Loading.documents, bind_apply, Loading.document_apply content_first,
      Loading.document_apply content_second]
    cbv
  · simp only [configure, Loading.documents, bind_apply, Loading.document_apply content_first,
      Loading.document_apply content_third]
    cbv

end SqlTemplate
