import Mathlib
import SqlTemplate.Proofs.DocumentLoading
import SqlTemplate.Proofs.ExpressionReading
import SqlTemplate.Proofs.IterationNames
import SqlTemplate.Proofs.KeyWrites
import SqlTemplate.Proofs.Resolution
import SqlTemplate.Proofs.Scoping

/-!
# Dialects of key statements

A key statement is registered with the statement whose keys it obtains, for the dialect of that
statement or for none. Its generator binds it for the dialect that it was declared for, and a
look-up under its id binds it for the dialect that is active. The two agree where the statement is
for the active dialect. Where it is for none, they agree on a static key statement only, or by
failing alike: a live one keeps the dialect that it is bound for among its bindings.

## Main definitions

* `KeyRequest.ofBound` : the request of a key statement with its bound SQL.

## Main results

* `Source.find?_dialectName` : bound SQL has the dialect among its bindings.
* `Catalog.Sound.bind_of_mem` : what a look-up under the id of a statement binds.
* `Account.of_selected` : the key statement of a registered statement is registered.
* `Draft.key_request_of_configure` : the requests for keys in a complete catalog.
-/

namespace SqlTemplate

/-- The name of the dialect is not the name of an iteration. -/
theorem plainName_dialectName : PlainName dialectName := by
  decide +kernel

theorem Value.ofString?_inj {s t : Option String} (h : ofString? s = ofString? t) : s = t := by
  cases s <;> cases t <;> cases h <;> rfl

/-- The bindings of a live source keep the dialect that it is bound for, unless the template binds
its name. -/
theorem Source.find?_dialectName {t : Template} (hfree : ¬ t.BindsName dialectName)
    {engine : Engine} {hint dialect : Option String} {parameter : Value} {b : BoundSql}
    (h : (Source.live t hint).bind engine parameter dialect = .ok b) :
    b.additional.find? dialectName = some (.ofString? dialect) := by
  obtain ⟨produced, c', hgives, hadditional, -⟩ := Source.exists_gives_of_bind h
  obtain ⟨-, hkeep, -⟩ := Template.render_keeps_bindings _ t hgives
  rw [hadditional, hkeep dialectName hfree fun x n _ _ _ =>
    plainName_dialectName.ne_iterationName x n]
  rfl

/-- For two dialects a live source is bound to different SQL, unless the template binds their name
or both fail alike. -/
theorem Source.live_bind_eq_iff {t : Template} (hfree : ¬ t.BindsName dialectName)
    {engine : Engine} {hint dialect other : Option String} {parameter : Value}
    (hne : dialect ≠ other) :
    (Source.live t hint).bind engine parameter dialect =
        (Source.live t hint).bind engine parameter other ↔
      ∃ failure, (Source.live t hint).bind engine parameter dialect = .error failure ∧
        (Source.live t hint).bind engine parameter other = .error failure := by
  constructor
  · intro heq
    cases hbind : (Source.live t hint).bind engine parameter dialect with
    | error failure => exact ⟨failure, rfl, heq ▸ hbind⟩
    | ok b =>
      have hdialect := find?_dialectName hfree hbind
      rw [find?_dialectName hfree (heq ▸ hbind)] at hdialect
      exact absurd (Value.ofString?_inj (Option.some.inj hdialect)).symm hne
  · rintro ⟨failure, hdialect, hother⟩
    rw [hdialect, hother]

/-- The bound SQL of a statement is looked up under its id where the statement is for the active
dialect, or where it is for none and no other of its id is for the active one. -/
theorem Catalog.Sound.bind_of_mem {c : Catalog} (h : c.Sound) {t : Statement}
    (ht : t ∈ c.registered) (hplace : t.dialect = c.dialect ∨
      t.dialect = none ∧ ∀ u ∈ c.registered, u.id = t.id → u.dialect ≠ c.dialect)
    (parameter : Value) : c.bind t.id parameter = t.bind c.engine parameter c.dialect := by
  have hmeans : Means c.registered t.id t.id := ⟨⟨t, ht, rfl⟩, .inl rfl⟩
  have hanswer : Answer c.registered t.id c.dialect (.ok t) := by
    rcases hplace with hactive | ⟨hnone, hothers⟩
    · exact .exact ht hmeans hactive
    · exact .fallback ht hmeans hnone hothers
  rw [Catalog.bind, Catalog.statement, h.statementFor_of_answer hanswer]
  rfl

/-- The key statement of a registered statement is registered for the same dialect, which
applies. -/
theorem Account.of_selected {start : Draft} {docs : List Document} {c : Catalog}
    {done : List (Declaration × Statement)} (h : Account start docs [] c done) {s : Statement}
    (hs : s ∈ c.registered) {key : Definition} {before : Bool}
    (hkeys : s.keys = .selected key before) :
    { toDefinition := key } ∈ c.registered ∧ key.dialect = s.dialect ∧
      Applies start.dialect s.dialect := by
  obtain ⟨p, hp, hsp⟩ := (h.mem_registered s).1 hs
  obtain rfl : s = p.2 := by
    rcases Statement.mem_withKey.1 hsp with rfl | ⟨_, _, -, rfl⟩
    · rfl
    · cases hkeys
  obtain ⟨-, d, -, -, hcompiles⟩ := h.compiled p hp
  have hmem : p.1 ∈ Document.applicable start.dialect docs :=
    h.counted_of_complete.mem_iff.1 (List.mem_map_of_mem hp)
  have happlies : Applies start.dialect p.1.dialect := by
    have hfilter := (List.mem_filter.1 hmem).2
    exact (of_decide_eq_true hfilter).2
  obtain ⟨command, -, hprepare⟩ := id hcompiles
  refine ⟨?_, (hcompiles.ownsKey key before hkeys).2, ?_⟩
  · exact (h.mem_registered _).2
      ⟨p, hp, Statement.mem_withKey.2 (Or.inr ⟨key, before, hkeys, rfl⟩)⟩
  · rw [(Registration.of_prepare hprepare).2.1]
    exact happlies

/-! ### Requests -/

namespace KeyRequest

/-- The request of a key statement with its bound SQL, or why it could not be bound. -/
def ofBound (key : Definition) (bound : Except Failure BoundSql) :
    Except Failure (Option KeyRequest) :=
  bound.map fun b => some (.query key b)

theorem ofBound_eq_ok_iff {key : Definition} {r : Except Failure BoundSql} {b : BoundSql} :
    ofBound key r = .ok (some (.query key b)) ↔ r = .ok b := by
  cases r <;> simp [ofBound, Except.map]

theorem ofBound_eq_error_iff {key : Definition} {r : Except Failure BoundSql} {failure : Failure} :
    ofBound key r = .error failure ↔ r = .error failure := by
  cases r <;> simp [ofBound, Except.map]

/-- Requests agree where what was bound agrees. -/
theorem ofBound_inj {key : Definition} {r r' : Except Failure BoundSql} :
    ofBound key r = ofBound key r' ↔ r = r' := by
  cases r' with
  | error failure => exact ofBound_eq_error_iff
  | ok b => exact ofBound_eq_ok_iff

end KeyRequest

namespace Draft

open KeyRequest (ofBound)

/-- A generator asks for the bound SQL of its key statement for the dialect of its statement. Where
that is the active dialect, this is what a look-up of the key statement gives. Where it is none, and
no other key statement of the id is for the active dialect, a look-up gives the bound SQL for the
active dialect: the same one of a static key statement; of a live one, another, which has the active
dialect where the first has null, unless the template itself binds the name, or both fail alike. -/
theorem key_request_of_configure {d : String} {generatedKeys : Bool} {engine : Engine}
    {docs : List Document} {c : Catalog}
    (hrun : configure { dialect := some d, generatedKeys, engine } docs = .ok c) {s : Statement}
    (hs : s ∈ c.registered) {key : Definition} {before : Bool}
    (hkeys : s.keys = .selected key before) (hproperties : key.keyProperties ≠ [])
    (parameter : Value) :
    let request := s.keys.request? c.engine s.toDefinition before parameter
    let lookedUp := c.bind key.id parameter
    request = ofBound key (key.bind c.engine parameter s.dialect) ∧
    (s.dialect = some d ∧ request = ofBound key lookedUp ∨
      s.dialect = none ∧ ((∀ t ∈ c.registered, t.id = key.id → t.dialect ≠ some d) →
        lookedUp = key.bind c.engine parameter (some d) ∧
        (key.source.isDynamic = false → request = ofBound key lookedUp) ∧
        ∀ t hint, key.source = .live t hint → ¬ t.BindsName dialectName →
          (∀ b, request = .ok (some (.query key b)) →
            b.additional.find? dialectName = some .null) ∧
          (∀ b, lookedUp = .ok b → b.additional.find? dialectName = some (.string d)) ∧
          (request = ofBound key lookedUp ↔
            ∃ failure, request = .error failure ∧ lookedUp = .error failure))) := by
  intro request lookedUp
  obtain ⟨last, done, rfl, hlast, haccount⟩ := exists_account hrun
  obtain ⟨hkey, hdialect, happlies⟩ := haccount.of_selected hs hkeys
  have hactive : last.dialect = some d := hlast.dialect
  have hrequest : request = ofBound key (key.bind last.engine parameter s.dialect) := by
    rw [← hdialect, ofBound, ← KeyGenerator.request?_selected hproperties, ← hkeys]
  refine ⟨hrequest, ?_⟩
  rcases happlies with hnone | hnone | hsome
  · cases hnone
  · refine .inr ⟨hnone, fun hothers => ?_⟩
    have hlookedUp : lookedUp = key.bind last.engine parameter (some d) := by
      rw [← hactive]
      exact haccount.sound.bind_of_mem hkey (.inr ⟨hdialect.trans hnone, hactive ▸ hothers⟩) _
    refine ⟨hlookedUp, fun hfixed => ?_, fun t hint hlive hfree => ?_⟩
    · rw [hrequest, hlookedUp, Definition.bind, Definition.bind]
      cases hsource : key.source with
      | fixed text sql mappings => rfl
      | live t hint => rw [hsource] at hfixed; cases hfixed
    · have hbound {b : BoundSql} {dialect : Option String}
          (h : key.bind last.engine parameter dialect = .ok b) :
          b.additional.find? dialectName = some (.ofString? dialect) := by
        rw [Definition.bind, hlive] at h
        exact Source.find?_dialectName hfree h
      rw [hlookedUp, hrequest, hnone]
      refine ⟨fun b hb => hbound (KeyRequest.ofBound_eq_ok_iff.1 hb), fun b hb => hbound hb, ?_⟩
      simp only [KeyRequest.ofBound_inj, KeyRequest.ofBound_eq_error_iff, Definition.bind, hlive]
      exact Source.live_bind_eq_iff hfree (Option.some_ne_none d).symm
  · refine .inl ⟨hsome, ?_⟩
    have hlookedUp : lookedUp = key.bind last.engine parameter (some d) := by
      rw [← hactive]
      exact haccount.sound.bind_of_mem hkey (.inl ((hdialect.trans hsome).trans hactive.symm)) _
    rw [hrequest, hlookedUp, hsome]

/-! ### A key statement that tests the dialect -/

namespace testing

/-- An insert for no dialect, whose key statement tests the dialect. -/
def insert : Element where
  name := "insert"
  attributes := [("id", "add")]
  children := [
    .element "selectKey" [("keyProperty", "id")]
      [.element "if" [("test", "_databaseId=='mysql'")] [.text "SELECT 1"]],
    .text "INSERT"]

def document : Document where
  source := "<mapper namespace=\"n\"><insert id=\"add\"><selectKey keyProperty=\"id\">" ++
    "<if test=\"_databaseId=='mysql'\">SELECT 1</if></selectKey>INSERT</insert></mapper>"
  resource := "n.xml"

/-- The template of the key statement. -/
def template : Template :=
  .sequence [.guarded "_databaseId=='mysql'" (.sequence [.fixed "SELECT 1"])]

/-- The key statement. -/
def key : Definition where
  id := "n.add!selectKey"
  command := .select
  source := .live template none
  keyProperties := ["id"]
  flushCache := false
  useCache := false

/-- The statement that the insert comes to. -/
def statement : Statement where
  id := "n.add"
  command := .insert
  source := .fixed "INSERT" "INSERT" []
  keys := .selected key false

def catalog : Catalog :=
  (({ dialect := some "mysql" } : Draft).insertAll statement.withKey).toCatalog

theorem content_document :
    Loading.content document.source document.resource = .ok ("n", [insert]) :=
  Loading.content_write (by decide +kernel) (by decide +kernel) (by decide)

set_option maxRecDepth 20000 in
theorem configure_document :
    configure { dialect := some "mysql" } [document] = .ok catalog := by
  simp only [configure, Loading.documents, bind_apply, Loading.document_apply content_document]
  cbv

theorem statement_mem_registered : statement ∈ catalog.registered := by
  cbv

theorem parse_test : Expr.parse "_databaseId=='mysql'" =
    .ok (.binary .eq (.name dialectName) (.literal (.string "mysql"))) := by
  have hprint : (Expr.binary .eq (.name dialectName) (.literal (.string "mysql"))).print =
      "_databaseId=='mysql'" := by
    decide +kernel
  rw [← hprint]
  exact Expr.parse_of_written (Expr.written_print (by decide))

theorem value_test (scope : Scope) {dialect : Option String}
    (h : scope.resolve? dialectName = some (.ofString? dialect)) :
    Evaluator.standard.value scope "_databaseId=='mysql'" =
      .ok (.bool (dialect = some "mysql")) := by
  change (Expr.parse "_databaseId=='mysql'").bind (Expr.evaluate scope) = _
  simp only [parse_test, Except.bind, Expr.evaluate, bind, h, BinaryOp.apply]
  cases dialect <;> simp [Value.ofString?, Value.looselyEquals, beq_eq_decide]

theorem boolean_test (dialect : Option String) :
    (Context.initial dialect).boolean (Engine.surroundings {} (.object []))
      "_databaseId=='mysql'" = .ok (dialect = some "mysql") := by
  have hvalue :=
    value_test ((Context.initial dialect).scope (Engine.surroundings {} (.object []))) rfl
  rw [Context.boolean, Evaluator.boolean, Engine.surroundings]
  rw [Engine.surroundings] at hvalue
  rw [hvalue]
  rfl

theorem bind_key (dialect : Option String) : key.bind {} (.object []) dialect = .ok
    { sql := if dialect = some "mysql" then "SELECT 1" else "", mappings := []
      parameter := .object [], additional := [(dialectName, .ofString? dialect)] } := by
  have hrender : Engine.render {} template (.object []) dialect =
      .ok (if dialect = some "mysql" then "SELECT 1" else "",
        [(dialectName, .ofString? dialect)]) := by
    refine Engine.render_eq_ok_iff.2 ?_
    by_cases hactive : dialect = some "mysql"
    · subst hactive
      refine ⟨true, (Context.initial (some "mysql")).write "SELECT 1", ?_, by cbv⟩
      simp [template, Template.render, Template.renderAll, Evaluation.gives_bind,
        Evaluation.gives_read, Evaluation.gives_map, boolean_test]
    · rw [if_neg hactive]
      refine ⟨false, .initial dialect, ?_, by cbv⟩
      simp [template, Template.render, Template.renderAll, Evaluation.gives_bind,
        Evaluation.gives_read, boolean_test, hactive]
  simp only [key, Definition.bind, Source.bind, hrender]
  split <;> cbv

theorem not_bindsName : ¬ template.BindsName dialectName := by
  simp [Template.BindsName, template, Template.nodes, Template.nodesAll]

theorem statement_key : catalog.statement key.id = .ok { toDefinition := key } := by
  cbv

/-- No other statement has the id of the key statement. -/
theorem others_foreign :
    ∀ t ∈ catalog.registered, t.id = key.id → t.dialect ≠ some "mysql" := by
  intro t ht hid hdialect
  have hnone : catalog.statements.variant? key.id (some "mysql") = none := by
    cbv
  rw [← hid, ← hdialect] at hnone
  cases hnone.symm.trans ht

end testing

open testing in
/-- The request of the insert is for null, and the look-up of its key statement for the active
dialect. -/
theorem key_request_of_configure_testing :
    configure { dialect := some "mysql" } [document] = .ok catalog ∧
      statement ∈ catalog.registered ∧
      (∃ b, statement.keys.request? catalog.engine statement.toDefinition false (.object []) =
        .ok (some (.query key b)) ∧ b.additional.find? dialectName = some .null) ∧
      ∃ b, catalog.bind key.id (.object []) = .ok b ∧
        b.additional.find? dialectName = some (.string "mysql") := by
  obtain ⟨hrequest, ⟨hdialect, -⟩ | ⟨-, hnone⟩⟩ := key_request_of_configure configure_document
    statement_mem_registered rfl (List.cons_ne_nil _ _) (.object [])
  · cases hdialect
  obtain ⟨hlookedUp, -, hlive⟩ := hnone others_foreign
  obtain ⟨hnull, hactive, -⟩ := hlive template none rfl not_bindsName
  have hbound := hrequest.trans (congrArg (ofBound key) (bind_key none))
  exact ⟨configure_document, statement_mem_registered, ⟨_, hbound, hnull _ hbound⟩, _,
    hlookedUp.trans (bind_key (some "mysql")), hactive _ (hlookedUp.trans (bind_key _))⟩

open testing in
/-- While a dialect is active, a generator asks for the bound SQL of its key statement for no
dialect. -/
theorem key_request_overlooks_dialect :
    configure { dialect := some "mysql" } [document] = .ok catalog ∧
      statement ∈ catalog.registered ∧ statement.keys = .selected key false ∧
      statement.keys.request? catalog.engine statement.toDefinition false (.object []) =
        .ok (some (.query key { sql := "", mappings := [], parameter := .object []
                                additional := [(dialectName, .null)] })) ∧
      catalog.bind key.id (.object []) =
        .ok { sql := "SELECT 1", mappings := [], parameter := .object []
              additional := [(dialectName, .string "mysql")] } := by
  refine ⟨configure_document, statement_mem_registered, rfl,
    congrArg (ofBound key) (bind_key none), ?_⟩
  rw [Catalog.bind, statement_key]
  exact bind_key (some "mysql")

end Draft

end SqlTemplate
