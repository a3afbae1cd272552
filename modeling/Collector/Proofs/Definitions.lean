import Collector.Proofs.Commuting
import Collector.Proofs.Files
import Collector.Proofs.Group.Convention
import Collector.Proofs.Text.Ascii

/-!
# Context variables behind a build

A build writes the variables of the transform group into the template and then, from the template
that it reads again, those of the connection group. So a variable that both groups declare stands
there as the connection group wrote it, and it is the check for conflicts that makes it a
definition that the transform group agrees with.

* `FileSystem.ReadsContent` says that reading answers what a file holds. The file systems at hand
  do so.
* `Edited` and `Built` are what a change of the template and a build have done that succeeded.
* `build_defines_context` says what the template then holds under each name.
-/

namespace Collector

variable {σ κ : Type}

/-! ## Reading files -/

namespace FileSystem

/-- Whether reading answers what a file holds. -/
def ReadsContent (fs : FileSystem σ κ) : Prop :=
  ∀ path text s, (fs.host.readText path s).1 = .ok text →
    ∃ file, fs.fileAt s path = some file ∧ fs.content s file = some (.text text)

theorem readsContent_ofMap : ofMap.ReadsContent := by
  intro path text files h
  refine ⟨path, rfl, ?_⟩
  show files path = some (.text text)
  simp only [ofMap] at h
  split at h
  · rename_i found hfound
    cases h
    exact hfound
  · cases h
  · cases h

end FileSystem

theorem Machine.readsContent (here : Place) : (fileSystem here).ReadsContent := by
  intro path text machine h
  change machine.disk.readText here path = .ok text at h
  show ∃ file, (machine.disk.resolve here path).toOption = some file ∧
    machine.disk.content? file = some (.text text)
  unfold Disk.readText at h
  cases hplace : machine.disk.resolve here path with
  | error fault =>
    rw [hplace] at h
    cases h
  | ok place =>
    rw [hplace] at h
    refine ⟨place, rfl, ?_⟩
    unfold Disk.content?
    cases hentry : machine.disk.at? place with
    | none => simp [bind, Except.bind, hentry] at h
    | some entry =>
      rcases entry with _ | (found | bytes)
      · simp [bind, Except.bind, hentry] at h
      · simp only [bind, Except.bind, hentry] at h
        cases h
        rfl
      · simp [bind, Except.bind, hentry] at h

namespace Layout

open Work

/-! ## Steps that have succeeded -/

section Steps

variable (fs : FileSystem σ κ) (layout : Layout) {s s' : σ}

/-- Whether a source file shows some exports. -/
def Shows (s : σ) (path : String) (exports : Exports) : Prop :=
  ∃ text, (fs.host.readText path s).1 = .ok text ∧ Exports.ofSource text = .ok exports

/-- Whether a source file declares the context variables of a schema. -/
def Declares (s : σ) (path : String) (schema : Schema) : Prop :=
  ∃ exports, Shows fs s path exports ∧ exports.schema = .ok schema

/-- Whether a template holds a document. -/
def Holds (s : σ) (document : Document) : Prop :=
  ∃ file text, fs.fileAt s layout.templatePath = some file ∧
    fs.content s file = some (.text text) ∧
    Document.ofText layout.templatePath text = .ok document

/-- What a change of the template has done that has succeeded. -/
structure Edited (edit : Edit) (s s' : σ) (before after : Document) : Prop where
  held : layout.Holds fs s before
  edited : edit.apply before = (.ok (), after)
  written : ∃ file, fs.fileAt s layout.templatePath = some file ∧
    fs.content s' file = some (.text after.text)
  others : ∀ file, fs.fileAt s layout.templatePath ≠ some file →
    fs.content s' file = fs.content s file
  paths : fs.fileAt s' = fs.fileAt s

variable {fs layout}

theorem ofFile_readText_eq_ok {path text : String}
    (h : (Work.ofFile (fs.host.readText path)).runOn s = (.ok text, s')) :
    s = s' ∧ (fs.host.readText path s).1 = .ok text := by
  rw [ofFile_runOn, Prod.mk.injEq, fs.readText_state] at h
  obtain ⟨hread, rfl⟩ := h
  refine ⟨rfl, ?_⟩
  cases hfound : (fs.host.readText path s).1 with
  | error fault =>
    rw [hfound] at hread
    cases hread
  | ok found =>
    rw [hfound] at hread
    exact congrArg Except.ok (Except.ok.inj hread)

theorem readExports_eq_ok {path : String} {exports : Exports}
    (h : (readExports fs.host path).runOn s = (.ok exports, s')) :
    s = s' ∧ Shows fs s path exports := by
  obtain ⟨text, s₁, hread, h⟩ := bind_runOn_eq_ok.1 h
  obtain ⟨rfl, htext⟩ := ofFile_readText_eq_ok hread
  rw [ofOutcome_runOn, Prod.mk.injEq] at h
  obtain ⟨hexports, rfl⟩ := h
  refine ⟨rfl, text, htext, ?_⟩
  cases hfound : Exports.ofSource text with
  | error error =>
    rw [hfound] at hexports
    cases hexports
  | ok found =>
    rw [hfound] at hexports
    exact congrArg Except.ok (Except.ok.inj hexports)

/-- The source of a state shows one thing only. -/
theorem Shows.unique {path : String} {first second : Exports} (h : Shows fs s path first)
    (h' : Shows fs s path second) : first = second := by
  obtain ⟨text, htext, hfirst⟩ := h
  obtain ⟨text', htext', hsecond⟩ := h'
  obtain rfl := Except.ok.inj (htext.symm.trans htext')
  exact Except.ok.inj (hfirst.symm.trans hsecond)

theorem Shows.schema_wellFormed {path : String} {exports : Exports}
    (h : Shows fs s path exports) {schema : Schema} (hschema : exports.schema = .ok schema) :
    schema.WellFormed ∧ schema.IsSound := by
  obtain ⟨_, -, hexports⟩ := h
  exact Exports.schema_wellFormed (Exports.wellFormed_of_source hexports) hschema

theorem editTemplate_eq_ok (hreads : fs.ReadsContent) {edit : Edit}
    (h : (layout.editTemplate fs.host edit).runOn s = (.ok (), s')) :
    ∃ before after, layout.Edited fs edit s s' before after := by
  obtain ⟨text, s₁, hread, h⟩ := bind_runOn_eq_ok.1 h
  obtain ⟨rfl, htext⟩ := ofFile_readText_eq_ok hread
  obtain ⟨before, s₂, hbefore, h⟩ := bind_runOn_eq_ok.1 h
  rw [ofOutcome_runOn, Prod.mk.injEq] at hbefore
  obtain ⟨hbefore, rfl⟩ := hbefore
  rcases hedit : edit.apply before with ⟨outcome, after⟩
  rw [hedit] at h
  obtain ⟨_, s₃, houtcome, h⟩ := bind_runOn_eq_ok.1 h
  rw [ofOutcome_runOn, Prod.mk.injEq] at houtcome
  obtain ⟨rfl, rfl⟩ := houtcome
  obtain ⟨file, hfile, hcontent⟩ := hreads _ _ _ htext
  rw [ofFile_runOn] at h
  rcases fs.writeText_cases layout.templatePath after.text s with
    ⟨fault, hrun⟩ | ⟨written, s₄, hrun, hwritten, hafter, hothers, hpaths⟩
  · rw [hrun] at h
    cases h
  · rw [hrun, Prod.mk.injEq] at h
    obtain ⟨-, rfl⟩ := h
    refine ⟨before, after, ⟨file, text, hfile, hcontent, hbefore⟩, hedit,
      ⟨written, hwritten, hafter⟩, fun other hother => hothers other ?_, hpaths⟩
    rintro rfl
    exact hother hwritten

theorem buildTransform_eq_ok (hreads : fs.ReadsContent) {compressor : Compressor}
    {t : TransformArtifacts}
    (h : (layout.buildTransform fs.host compressor).runOn s = (.ok t, s')) :
    ∃ exports before after, Shows fs s layout.transformPath exports ∧
      exports.schema = .ok t.schema ∧ layout.Edited fs t.apply s s' before after := by
  obtain ⟨exports, s₁, hread, h⟩ := bind_runOn_eq_ok.1 h
  obtain ⟨rfl, hshows⟩ := readExports_eq_ok hread
  obtain ⟨artifacts, s₂, hcompile, h⟩ := bind_runOn_eq_ok.1 h
  rw [ofOutcome_runOn, Prod.mk.injEq] at hcompile
  obtain ⟨hcompile, rfl⟩ := hcompile
  obtain ⟨_, s₃, hedit, h⟩ := bind_runOn_eq_ok.1 h
  rw [pure_runOn, Prod.mk.injEq] at h
  obtain ⟨⟨⟩, rfl⟩ := h
  obtain ⟨plan, own, sources, hplanned, -, hschema⟩ := Transform.outcome_eq_ok hcompile
  obtain ⟨before, after, hedited⟩ := editTemplate_eq_ok hreads hedit
  refine ⟨exports, before, after, hshows, ?_, hedited⟩
  rw [hschema]
  exact hplanned.schema

theorem compileConnection_schema {compressor : Compressor} {exports : Exports}
    {c : ConnectionArtifacts} (h : (compileConnection compressor exports).outcome = .ok c) :
    exports.schema = .ok c.schema := by
  rcases hrun : Work.runOn (compileConnection compressor exports) [] with ⟨outcome, seen⟩
  obtain rfl : outcome = .ok c := (congrArg Prod.fst hrun).symm.trans h
  obtain ⟨schema, _, hschema, hrun⟩ := bind_runOn_eq_ok.1 hrun
  obtain ⟨plan, _, -, hrun⟩ := bind_runOn_eq_ok.1 hrun
  obtain ⟨endpoint, _, -, hrun⟩ := bind_runOn_eq_ok.1 hrun
  obtain ⟨headers, _, -, hrun⟩ := bind_runOn_eq_ok.1 hrun
  rw [pure_runOn, Prod.mk.injEq] at hrun
  obtain ⟨⟨⟩, -⟩ := hrun
  exact congrArg Prod.fst hschema

theorem buildConnection_eq_ok (hreads : fs.ReadsContent) {compressor : Compressor}
    {c : ConnectionArtifacts}
    (h : (layout.buildConnection fs.host compressor).runOn s = (.ok c, s')) :
    ∃ exports before after, Shows fs s layout.connectionPath exports ∧
      exports.schema = .ok c.schema ∧ layout.Edited fs c.apply s s' before after := by
  obtain ⟨exports, s₁, hread, h⟩ := bind_runOn_eq_ok.1 h
  obtain ⟨rfl, hshows⟩ := readExports_eq_ok hread
  obtain ⟨artifacts, s₂, hcompile, h⟩ := bind_runOn_eq_ok.1 h
  rw [ofOutcome_runOn, Prod.mk.injEq] at hcompile
  obtain ⟨hcompile, rfl⟩ := hcompile
  obtain ⟨_, s₃, hedit, h⟩ := bind_runOn_eq_ok.1 h
  rw [pure_runOn, Prod.mk.injEq] at h
  obtain ⟨⟨⟩, rfl⟩ := h
  obtain ⟨before, after, hedited⟩ := editTemplate_eq_ok hreads hedit
  exact ⟨exports, before, after, hshows, compileConnection_schema hcompile, hedited⟩

theorem checkConflicts_eq_ok
    (h : (layout.checkConflicts fs.host).runOn s = (.ok (), s')) :
    s = s' ∧ ∃ transform connection first second,
      Shows fs s layout.transformPath transform ∧ Shows fs s layout.connectionPath connection ∧
        transform.schema = .ok first ∧ connection.schema = .ok second ∧
        Schema.checkConflicts first second = .ok () := by
  obtain ⟨transform, s₁, hread, h⟩ := bind_runOn_eq_ok.1 h
  obtain ⟨rfl, htransform⟩ := readExports_eq_ok hread
  obtain ⟨connection, s₂, hread, h⟩ := bind_runOn_eq_ok.1 h
  obtain ⟨rfl, hconnection⟩ := readExports_eq_ok hread
  obtain ⟨first, s₃, hfirst, h⟩ := bind_runOn_eq_ok.1 h
  rw [ofOutcome_runOn, Prod.mk.injEq] at hfirst
  obtain ⟨hfirst, rfl⟩ := hfirst
  obtain ⟨second, s₄, hsecond, h⟩ := bind_runOn_eq_ok.1 h
  rw [ofOutcome_runOn, Prod.mk.injEq] at hsecond
  obtain ⟨hsecond, rfl⟩ := hsecond
  rw [ofOutcome_runOn, Prod.mk.injEq] at h
  obtain ⟨hcheck, rfl⟩ := h
  exact ⟨rfl, transform, connection, first, second, htransform, hconnection, hfirst, hsecond,
    hcheck⟩

/-- A change of the template leaves sources that are other files. -/
theorem Edited.shows {edit : Edit} {before after : Document}
    (hedited : layout.Edited fs edit s s' before after) (hreads : fs.ReadsContent) {path : String}
    (hpath : fs.fileAt s path ≠ fs.fileAt s layout.templatePath) {first second : Exports}
    (hfirst : Shows fs s path first) (hsecond : Shows fs s' path second) : first = second := by
  obtain ⟨text, htext, hfirst⟩ := hfirst
  obtain ⟨text', htext', hsecond⟩ := hsecond
  obtain ⟨file, hfile, hcontent⟩ := hreads _ _ _ htext
  obtain ⟨file', hfile', hcontent'⟩ := hreads _ _ _ htext'
  rw [hedited.paths] at hfile'
  obtain rfl := Option.some.inj (hfile.symm.trans hfile')
  rw [hedited.others file fun h => hpath (hfile.trans h.symm), hcontent] at hcontent'
  cases hcontent'
  exact Except.ok.inj (hfirst.symm.trans hsecond)

end Steps

end Layout

/-! ## Documents that are read again -/

namespace Document

/-- Whether the text of a document reads as the document itself. -/
def ReadsBack (document : Document) : Prop :=
  Json.parse? document.text = some (.object document)

instance (document : Document) : Decidable document.ReadsBack :=
  inferInstanceAs (Decidable (_ = _))

theorem ReadsBack.ofText_text {document : Document} (h : document.ReadsBack) (path : String) :
    Document.ofText path document.text = .ok document := by
  unfold Document.ofText
  rw [h]

/-- In ASCII the bytes of the text are read instead of its characters. -/
theorem readsBack_of_ascii {document : Document} (hascii : Text.isAscii document.text = true)
    (h : (do
        let (value, rest) ← Json.readValue Json.depthLimit (Text.asciiChars document.text)
        if (Json.skipSpace rest).isEmpty then some value else none) = some (.object document)) :
    document.ReadsBack := by
  rw [ReadsBack, Json.parse?, Text.toList_eq_asciiChars hascii]
  exact h

/-- What the section for context variables holds behind updates of a transform group with the
schema `first` and of a connection group with the schema `second` that agree with each other: what
the later one has written, a definition that the earlier one agrees with, and under all other names
what was there before. -/
structure Defines (before after : Document) (first second : Schema) : Prop where
  transform : ∀ name v, Entries.get? first name = some v → ∃ entry w,
    after.field? contextDefinitionName name = some entry ∧ Variable.ofJson entry = .ok w ∧
      w.description = v.description ∧ w.required = v.required ∧
      Json.SameOption v.default w.default
  connection : ∀ name w, Entries.get? second name = some w →
    after.field? contextDefinitionName name = some w.toJson
  others : ∀ name, Entries.get? first name = none → Entries.get? second name = none →
    after.field? contextDefinitionName name = before.field? contextDefinitionName name

/-- A change that succeeds is an update of an editable document. -/
theorem isEditable_of_apply {u : Update} {before after : Document}
    (h : u.edit.apply before = (.ok (), after)) : before.IsEditable := by
  by_contra hfault
  exact (update_of_not_isEditable hfault u).1 (congrArg Prod.fst h)

/-- Two changes in a row that succeed are a run of updates. -/
theorem updated_of_apply_pair {u v : Update} {before middle after : Document}
    (hu : u.edit.apply before = (.ok (), middle)) (hv : v.edit.apply middle = (.ok (), after)) :
    (before.update [u, v]).2 = after ∧ Updated before [u, v] after := by
  have hafter : (before.update [u, v]).2 = after := by
    rw [update_cons, hu, update_cons, hv]
    rfl
  refine ⟨hafter, ?_⟩
  rw [← hafter]
  exact (updated_update (isEditable_of_apply hu) [u, v]).2

/-- Groups that have passed the check for conflicts define in a document what both declare. -/
theorem defines_of_updated {t : TransformArtifacts} {c : ConnectionArtifacts}
    {before after : Document} (ht : t.schema.WellFormed ∧ t.schema.IsSound)
    (hc : c.schema.WellFormed ∧ c.schema.IsSound)
    (hcheck : Schema.checkConflicts t.schema c.schema = .ok ())
    (h : Updated before [.transform t, .connection c] after) :
    before.Defines after t.schema c.schema := by
  obtain ⟨htWell, htSound⟩ := ht
  obtain ⟨hcWell, hcSound⟩ := hc
  have hfield (name : String) : after.field? contextDefinitionName name =
      (((Entries.get? c.schema name).or (Entries.get? t.schema name)).map Variable.toJson).or
        (before.field? contextDefinitionName name) := by
    rw [h.field?_definition name, lastSaid_pair]
    show (((Entries.get? (Entries.ofList c.schema) name).or
      (Entries.get? (Entries.ofList t.schema) name)).map _).or _ = _
    rw [Entries.ofList_of_nodup htWell.nodup, Entries.ofList_of_nodup hcWell.nodup]
  have hconnection (name : String) (w : Variable) (hw : Entries.get? c.schema name = some w) :
      after.field? contextDefinitionName name = some w.toJson := by
    rw [hfield, hw]
    rfl
  refine ⟨fun name v hv => ?_, hconnection, fun name hnone hnone' => ?_⟩
  · cases hw : Entries.get? c.schema name with
    | none =>
      have hagrees := (Variable.agrees_iff v v).1 (htWell.definition hv).agrees_self
      refine ⟨v.toJson, v, ?_, (htSound _ (Entries.mem_of_get? hv)).ofJson_toJson, rfl, rfl,
        hagrees.2.2⟩
      rw [hfield, hw, hv]
      rfl
    | some w =>
      obtain ⟨hdescription, hrequired, hdefault⟩ := (Variable.agrees_iff v w).1
        (Schema.agrees_of_checkConflicts hcheck hv hw)
      exact ⟨w.toJson, w, hconnection name w hw,
        (hcSound _ (Entries.mem_of_get? hw)).ofJson_toJson, hdescription.symm, hrequired.symm,
        hdefault⟩
  · rw [hfield, hnone, hnone']
    rfl

end Document

namespace Layout

open Work

section Builds

variable {fs : FileSystem σ κ} {layout : Layout} {s s' : σ} {t : TransformArtifacts}
  {c : ConnectionArtifacts}

/-- A template holds one document only. -/
theorem Holds.unique {first second : Document} (h : layout.Holds fs s first)
    (h' : layout.Holds fs s second) : first = second := by
  obtain ⟨file, text, hfile, htext, hfirst⟩ := h
  obtain ⟨file', text', hfile', htext', hsecond⟩ := h'
  obtain rfl := Option.some.inj (hfile.symm.trans hfile')
  cases htext.symm.trans htext'
  exact Except.ok.inj (hfirst.symm.trans hsecond)

/-- A document that reads back is what the template holds that it has been written into. -/
theorem Edited.holds {edit : Edit} {before after : Document}
    (hedited : layout.Edited fs edit s s' before after) (hback : after.ReadsBack) :
    layout.Holds fs s' after := by
  obtain ⟨file, hfile, hcontent⟩ := hedited.written
  rw [← hedited.paths] at hfile
  exact ⟨file, _, hfile, hcontent, hback.ofText_text _⟩

/-- What a build has done that has succeeded: both groups declare what their artifacts say, the
check for conflicts has been passed, and the template has been changed twice. -/
theorem build_eq_ok (hreads : fs.ReadsContent) {compressor : Compressor}
    (hbuild : (layout.build fs.host compressor).runOn s = (.ok (t, c), s'))
    (hsources : ∀ path ∈ [layout.transformPath, layout.connectionPath],
      fs.fileAt s path ≠ fs.fileAt s layout.templatePath) :
    Declares fs s layout.transformPath t.schema ∧ Declares fs s layout.connectionPath c.schema ∧
      Schema.checkConflicts t.schema c.schema = .ok () ∧
      ∃ s₁ before middle middle' after, layout.Edited fs t.apply s s₁ before middle ∧
        layout.Edited fs c.apply s₁ s' middle' after := by
  obtain ⟨_, s₀, hcheck, h⟩ := bind_runOn_eq_ok.1 hbuild
  obtain ⟨rfl, transform, connection, first, second, htransform, hconnection, hfirst, hsecond,
    hcheck⟩ := checkConflicts_eq_ok hcheck
  obtain ⟨_, s₁, ht, h⟩ := bind_runOn_eq_ok.1 h
  obtain ⟨_, s₂, hc, h⟩ := bind_runOn_eq_ok.1 h
  rw [pure_runOn, Prod.mk.injEq] at h
  obtain ⟨⟨⟩, rfl⟩ := h
  obtain ⟨exports, before, middle, hshows, ht, hedited⟩ := buildTransform_eq_ok hreads ht
  obtain ⟨exports', middle', after, hshows', hc, hedited'⟩ := buildConnection_eq_ok hreads hc
  -- The sources are read twice, and each time they show the same.
  obtain rfl := htransform.unique hshows
  obtain rfl := hedited.shows hreads (hsources _ (by simp)) hconnection hshows'
  obtain rfl := Except.ok.inj (hfirst.symm.trans ht)
  obtain rfl := Except.ok.inj (hsecond.symm.trans hc)
  exact ⟨⟨transform, hshows, ht⟩, ⟨connection, hconnection, hc⟩, hcheck, s₁, before, middle,
    middle', after, hedited, hedited'⟩

theorem Declares.schema_wellFormed {path : String} {schema : Schema}
    (h : Declares fs s path schema) : schema.WellFormed ∧ schema.IsSound := by
  obtain ⟨exports, hshows, hschema⟩ := h
  exact hshows.schema_wellFormed hschema

/-- A build that succeeds defines in the template what both groups declare: the connection group as
it declares it, the transform group up to what the check for conflicts does not look at. -/
theorem build_defines_context (hreads : fs.ReadsContent) {compressor : Compressor}
    (hbuild : (layout.build fs.host compressor).runOn s = (.ok (t, c), s'))
    (hsources : ∀ path ∈ [layout.transformPath, layout.connectionPath],
      fs.fileAt s path ≠ fs.fileAt s layout.templatePath)
    (hjson : ∀ before, layout.Holds fs s before →
      (before.update [.transform t]).2.ReadsBack ∧
        (before.update [.transform t, .connection c]).2.ReadsBack) :
    Declares fs s layout.transformPath t.schema ∧ Declares fs s layout.connectionPath c.schema ∧
      ∃ before after, layout.Holds fs s before ∧ layout.Holds fs s' after ∧
        before.Defines after t.schema c.schema := by
  obtain ⟨htDeclared, hcDeclared, hcheck, s₁, before, middle, middle', after, hedited,
    hedited'⟩ := build_eq_ok hreads hbuild hsources
  obtain ⟨hbackFirst, hbackBoth⟩ := hjson before hedited.held
  have hmiddle : (before.update [.transform t]).2 = middle :=
    congrArg Prod.snd hedited.edited
  rw [hmiddle] at hbackFirst
  obtain rfl := (hedited.holds hbackFirst).unique hedited'.held
  have hupdated := Document.updated_of_apply_pair (u := .transform t) (v := .connection c)
    hedited.edited hedited'.edited
  rw [hupdated.1] at hbackBoth
  exact ⟨htDeclared, hcDeclared, before, after, hedited.held,
    hedited'.holds hbackBoth,
    Document.defines_of_updated htDeclared.schema_wellFormed hcDeclared.schema_wellFormed hcheck
      hupdated.2⟩

/-- A template with one variable. -/
def notedTemplate : Document :=
  [("contextDefinition", .object [("note", .object [("description", .string "Note")])])]

/-- The files of a project with this template, whose groups declare the same other variable, and
only one of them as secret. -/
def sharedToken : String → Option Content
  | "p/p.json" => some (.text notedTemplate.text)
  | "p/transform/transform.js" => some (.text
      "module.exports = \x7b contextDefinition: \x7b token: \x7b description: 'Token',
        encrypted: true \x7d \x7d \x7d")
  | "p/connection/connection.js" => some (.text
      "module.exports = \x7b url: 'http://host', contextDefinition: \x7b token: \x7b
        description: 'Token' \x7d \x7d \x7d")
  | _ => none

/-- The template that the transform group leaves. -/
def transformedTemplate : Document :=
  [("contextDefinition", .object [("note", .object [("description", .string "Note")]),
      ("token", .object [("description", .string "Token"), ("encrypted", .bool true)])]),
    ("connection", .object []), ("transform", .object [("errorHandlers", .object [])])]

/-- The template that both groups leave. -/
def connectedTemplate : Document :=
  [("contextDefinition", .object [("note", .object [("description", .string "Note")]),
      ("token", .object [("description", .string "Token")])]),
    ("connection", .object [("url", .string "http://host")]),
    ("transform", .object [("errorHandlers", .object [])])]

/-- The variable of both groups stands in the template, next to the one that was there. -/
theorem build_defines_context_sharedToken :
    let layout : Layout := ⟨"p", "p"⟩
    let fs := FileSystem.ofMap
    ∃ t c s', (layout.build fs.host .ok).runOn sharedToken = (.ok (t, c), s') ∧
      Entries.names t.schema = ["token"] ∧ Entries.names c.schema = ["token"] ∧
      ∃ before after, layout.Holds fs sharedToken before ∧ layout.Holds fs s' after ∧
        before.Defines after t.schema c.schema := by
  intro layout fs
  have hrun : ((layout.build fs.host .ok).runOn sharedToken).1.toOption.map (fun built =>
      ((Entries.names built.1.schema, Entries.names built.2.schema),
        (notedTemplate.update [.transform built.1]).2,
        (notedTemplate.update [.transform built.1, .connection built.2]).2)) =
      some ((["token"], ["token"]), transformedTemplate, connectedTemplate) := by
    decide +kernel
  have hpath : layout.templatePath = "p/p.json" := by decide +kernel
  have hback : notedTemplate.ReadsBack :=
    Document.readsBack_of_ascii (by decide +kernel) (by decide +kernel)
  have hbackFirst : transformedTemplate.ReadsBack :=
    Document.readsBack_of_ascii (by decide +kernel) (by decide +kernel)
  have hbackBoth : connectedTemplate.ReadsBack :=
    Document.readsBack_of_ascii (by decide +kernel) (by decide +kernel)
  have hholds : layout.Holds fs sharedToken notedTemplate :=
    ⟨"p/p.json", _, congrArg some hpath, rfl, hback.ofText_text _⟩
  rcases hbuild : (layout.build fs.host .ok).runOn sharedToken with ⟨outcome, s'⟩
  rw [hbuild] at hrun
  obtain ⟨⟨t, c⟩, hok, hbuilt⟩ := Option.map_eq_some_iff.1 hrun
  obtain rfl : outcome = .ok (t, c) := Outcome.eq_ok_of_toOption hok
  obtain ⟨hschemas, hdocuments⟩ := Prod.mk.inj hbuilt
  obtain ⟨ht, hc⟩ := Prod.mk.inj hschemas
  obtain ⟨hfirst, hboth⟩ := Prod.mk.inj hdocuments
  obtain ⟨-, -, before, after, hbefore, hafter, hdefines⟩ :=
    build_defines_context FileSystem.readsContent_ofMap hbuild (by decide +kernel)
      (fun before hbefore => by
        obtain rfl := hbefore.unique hholds
        exact ⟨hfirst.symm ▸ hbackFirst, hboth.symm ▸ hbackBoth⟩)
  exact ⟨t, c, s', rfl, ht, hc, before, after, hbefore, hafter, hdefines⟩

end Builds

end Layout

end Collector
