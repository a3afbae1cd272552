import Collector.Proofs.Entries
import Collector.Proofs.Running
import Collector.Template.Document

/-!
# Updates of a template

A template is updated by transform groups and by connection groups, any number of times and in
any order. Both write into the same nested objects, and each field is decided by the last update
that writes it.

* `Update` is one of the two ways to write into a document, `Document.update` a run of them.
* `Document.IsEditable` says when updates succeed. It is neither won nor lost by an update.
* `Document.Updated` says what each field of a document is behind a run of updates. It holds of
  the empty run, of single updates, and of two runs in a row (`Updated.trans`).
* `update_succeeds_iff_and_last_write_wins` is the result.
-/

namespace Collector

/-! ## Updates -/

/-- One of the two ways in which a build writes into a document. -/
inductive Update where
  | transform (artifacts : TransformArtifacts)
  | connection (artifacts : ConnectionArtifacts)

namespace Update

/-- The change that an update makes. -/
def edit : Update → Edit
  | .transform artifacts => artifacts.apply
  | .connection artifacts => artifacts.apply

/-- The context variables that an update writes. -/
def schema : Update → Schema
  | .transform artifacts => artifacts.schema
  | .connection artifacts => artifacts.schema

def transform? : Update → Option TransformArtifacts
  | .transform artifacts => some artifacts
  | .connection _ => none

def connection? : Update → Option ConnectionArtifacts
  | .transform _ => none
  | .connection artifacts => some artifacts

/-- The headers that an update writes. -/
def headers? (u : Update) : Option Json := u.connection?.bind ConnectionArtifacts.headers

/-- The variable that an update writes under a name. -/
def definition? (u : Update) (name : String) : Option Variable :=
  Entries.get? (Entries.ofList u.schema) name

end Update

/-- What the last update says of those that say anything. -/
def lastSaid {α : Type} (said : Update → Option α) (updates : List Update) : Option α :=
  (updates.filterMap said).getLast?

theorem lastSaid_append {α : Type} (said : Update → Option α) (first second : List Update) :
    lastSaid said (first ++ second) = (lastSaid said second).or (lastSaid said first) := by
  unfold lastSaid
  rw [List.filterMap_append, List.getLast?_append]

theorem lastSaid_singleton {α : Type} (said : Update → Option α) (u : Update) :
    lastSaid said [u] = said u := by
  unfold lastSaid
  cases h : said u <;> simp [h]

namespace Document

/-- Runs updates one after another, those behind a failed one too: what each answers, and the
document that they leave. -/
def update (document : Document) : List Update → List (Outcome Unit) × Document
  | [] => ([], document)
  | u :: rest =>
    let (outcome, document) := u.edit.apply document
    let (outcomes, document) := update document rest
    (outcome :: outcomes, document)

/-- Whether the two sections of a document are missing or objects. -/
def IsEditable (document : Document) : Prop :=
  ∀ name ∈ ["connection", "contextDefinition"], ∀ value,
    Entries.get? document name = some value → value.isObject = true

/-- A field of a section. -/
def field? (document : Document) (sectionName key : String) : Option Json :=
  (sectionFields? document sectionName).bind fun fields => Entries.get? fields key

/-! ## One section -/

theorem sectionFields?_put (document : Document) (name other : String) (fields : Entries Json) :
    sectionFields? (Entries.put document name (.object fields)) other =
      if other = name then some fields else sectionFields? document other := by
  unfold sectionFields?
  rw [Entries.get?_put]
  by_cases h : other = name
  · rw [if_pos h, if_pos h]
    rfl
  · rw [if_neg h, if_neg h]

theorem sectionFields?_put_of_ne (document : Document) {name other : String} (value : Json)
    (h : other ≠ name) :
    sectionFields? (Entries.put document name value) other = sectionFields? document other := by
  unfold sectionFields?
  rw [Entries.get?_put_of_ne document value h]

theorem field?_eq {document : Document} {name : String} {fields : Entries Json}
    (h : sectionFields? document name = some fields) (key : String) :
    document.field? name key = Entries.get? fields key := by
  unfold field?
  rw [h]
  rfl

theorem editSection_runOn (name : String) (change : Entries Json → Entries Json)
    (document : Document) :
    Work.runOn (editSection name change) document =
      match sectionFields? document name with
      | some fields => (.ok (), Entries.put document name (.object (change fields)))
      | none => (.error (.sectionNotObject name), document) := by
  unfold editSection
  rw [Work.bind_runOn]
  show Work.runOn (match sectionFields? document name with | some _ => _ | none => _) document = _
  cases sectionFields? document name with
  | none => rfl
  | some fields => rfl

theorem isEditable_iff (document : Document) :
    document.IsEditable ↔ ∃ connection definitions,
      sectionFields? document connectionName = some connection ∧
        sectionFields? document contextDefinitionName = some definitions := by
  have hsection (name : String) :
      (∀ value, Entries.get? document name = some value → value.isObject = true) ↔
        ∃ fields, sectionFields? document name = some fields := by
    unfold sectionFields?
    cases Entries.get? document name with
    | none => simp
    | some value => cases value <;> simp [Json.isObject, Json.fields?]
  unfold IsEditable
  simp [hsection, connectionName, contextDefinitionName]

/-! ## What updates leave -/

/-- What a document is behind a run of updates: each field is what the last update that writes it
says, and what it was before if there is none. -/
structure Updated (before : Document) (updates : List Update) (after : Document) : Prop where
  isEditable : before.IsEditable → after.IsEditable
  /-- The body for regular responses stands under `default` if there is one, the bodies of the
  handlers stand in order under `errorHandlers`, and nothing else stands there. -/
  transform : Entries.get? after "transform" =
    (lastSaid Update.transform? updates).elim (Entries.get? before "transform") fun artifacts =>
      let handlers := Json.object
        (artifacts.errorHandlers.map fun handler => (handler.1, .string handler.2))
      match artifacts.default with
      | some body => some (.object [("default", .string body), ("errorHandlers", handlers)])
      | none => some (.object [("errorHandlers", handlers)])
  /-- Functions that take all subjects at once are told from others by a boolean; a group without
  functions leaves none. -/
  bulk : after.field? "connection" "bulk" =
    (lastSaid Update.transform? updates).elim (before.field? "connection" "bulk")
      fun artifacts =>
        match artifacts.convention with
        | some .batch => some (.bool true)
        | some .singleItem => some (.bool false)
        | none => none
  url : after.field? "connection" "url" =
    (lastSaid Update.connection? updates).elim (before.field? "connection" "url")
      fun artifacts =>
        match artifacts.endpoint with
        | .url text => some (.string text)
        | .toUrl _ => none
  toUrl : after.field? "connection" "toUrl" =
    (lastSaid Update.connection? updates).elim (before.field? "connection" "toUrl")
      fun artifacts =>
        match artifacts.endpoint with
        | .url _ => none
        | .toUrl body => some (.string body)
  headers : after.field? "connection" "headers" =
    (lastSaid Update.headers? updates).or (before.field? "connection" "headers")
  /-- A variable has its description and those of the three optional fields that it gives, and then
  the fields without a meaning. Of two fields with one name the later value stands. -/
  definition : ∀ name, after.field? "contextDefinition" name =
    ((lastSaid (Update.definition? · name) updates).map fun v => Json.object <| Entries.ofList <|
      ("description", .string v.description) ::
        (v.required.toList.map fun flag => ("required", .bool flag)) ++
        (v.default.toList.map fun value => ("default", value)) ++
        (v.encrypted.toList.map fun flag => ("encrypted", .bool flag)) ++ v.extra).or
      (before.field? "contextDefinition" name)
  otherConnection : ∀ key, key ∉ ["bulk", "url", "toUrl", "headers"] →
    after.field? "connection" key = before.field? "connection" key
  otherRoot : ∀ key, key ∉ ["transform", "connection", "contextDefinition"] →
    Entries.get? after key = Entries.get? before key

namespace Updated

theorem refl (document : Document) : Updated document [] document where
  isEditable h := h
  transform := rfl
  bulk := rfl
  url := rfl
  toUrl := rfl
  headers := rfl
  definition _ := rfl
  otherConnection _ _ := rfl
  otherRoot _ _ := rfl

/-- Behind two runs in a row the later one decides, and the earlier one where that is silent. -/
theorem trans {first second third : Document} {updates others : List Update}
    (h : Updated first updates second) (h' : Updated second others third) :
    Updated first (updates ++ others) third where
  isEditable hfirst := h'.isEditable (h.isEditable hfirst)
  transform := by
    rw [lastSaid_append, h'.transform, h.transform]
    cases lastSaid Update.transform? others <;> rfl
  bulk := by
    rw [lastSaid_append, h'.bulk, h.bulk]
    cases lastSaid Update.transform? others <;> rfl
  url := by
    rw [lastSaid_append, h'.url, h.url]
    cases lastSaid Update.connection? others <;> rfl
  toUrl := by
    rw [lastSaid_append, h'.toUrl, h.toUrl]
    cases lastSaid Update.connection? others <;> rfl
  headers := by
    rw [lastSaid_append, h'.headers, h.headers]
    cases lastSaid Update.headers? others <;> rfl
  definition name := by
    rw [lastSaid_append, h'.definition, h.definition]
    cases lastSaid (Update.definition? · name) others <;> rfl
  otherConnection key hkey := (h'.otherConnection key hkey).trans (h.otherConnection key hkey)
  otherRoot key hkey := (h'.otherRoot key hkey).trans (h.otherRoot key hkey)

end Updated

/-- What is written of a variable. -/
theorem toJson_eq (v : Variable) :
    v.toJson = .object (Entries.ofList <|
      ("description", .string v.description) ::
        (v.required.toList.map fun flag => ("required", .bool flag)) ++
        (v.default.toList.map fun value => ("default", value)) ++
        (v.encrypted.toList.map fun flag => ("encrypted", .bool flag)) ++ v.extra) := by
  unfold Variable.toJson Variable.fields Variable.optionalField
  cases v.required <;> cases v.encrypted <;> rfl

theorem Updated.field?_definition {before after : Document} {updates : List Update}
    (h : Updated before updates after) (name : String) :
    after.field? contextDefinitionName name =
      ((lastSaid (Update.definition? · name) updates).map Variable.toJson).or
        (before.field? contextDefinitionName name) := by
  rw [funext toJson_eq]
  exact h.definition name

/-! ## Single updates -/

theorem editSection_of_some {document : Document} {name : String} {fields : Entries Json}
    (h : sectionFields? document name = some fields) (change : Entries Json → Entries Json) :
    Work.runOn (editSection name change) document =
      (.ok (), Entries.put document name (.object (change fields))) := by
  rw [editSection_runOn, h]

/-- The document in which both sections are written out, the first with `connection` in it and the
second with `definitions`. -/
def withSections (document : Document) (connection definitions : Entries Json) : Document :=
  Entries.put (Entries.put document connectionName (.object connection)) contextDefinitionName
    (.object definitions)

theorem sectionFields?_withSections_connection (document : Document)
    (connection definitions : Entries Json) :
    sectionFields? (withSections document connection definitions) connectionName =
      some connection := by
  unfold withSections
  rw [sectionFields?_put_of_ne _ _ (by decide), sectionFields?_put, if_pos rfl]

theorem sectionFields?_withSections_definitions (document : Document)
    (connection definitions : Entries Json) :
    sectionFields? (withSections document connection definitions) contextDefinitionName =
      some definitions := by
  unfold withSections
  rw [sectionFields?_put, if_pos rfl]

theorem get?_withSections (document : Document) (connection definitions : Entries Json)
    {key : String} (hconnection : key ≠ connectionName)
    (hdefinitions : key ≠ contextDefinitionName) :
    Entries.get? (withSections document connection definitions) key =
      Entries.get? document key := by
  unfold withSections
  rw [Entries.get?_put_of_ne _ _ hdefinitions, Entries.get?_put_of_ne _ _ hconnection]

theorem materialize_runOn {document : Document} {connection definitions : Entries Json}
    (hconnection : sectionFields? document connectionName = some connection)
    (hdefinitions : sectionFields? document contextDefinitionName = some definitions) :
    Work.runOn materialize document =
      (.ok (), withSections document connection definitions) := by
  unfold materialize
  rw [Work.bind_runOn, editSection_of_some hconnection]
  refine editSection_of_some ?_ id
  rw [sectionFields?_put_of_ne _ _ (by decide), hdefinitions]

/-- The definitions of a section behind those of a schema. -/
def merged (definitions : Entries Json) (schema : Schema) : Entries Json :=
  Entries.putAll definitions (Entries.mapValues Variable.toJson schema)

/-- Both kinds of update end in this way: with a change of the first section, and with definitions
that are merged into the second. -/
theorem editBoth_runOn {document : Document} {connection definitions : Entries Json}
    (hconnection : sectionFields? document connectionName = some connection)
    (hdefinitions : sectionFields? document contextDefinitionName = some definitions)
    (change : Entries Json → Entries Json) (schema : Schema) :
    Work.runOn (editSection connectionName change >>= fun _ => mergeSchema schema) document =
      (.ok (), withSections document (change connection) (merged definitions schema)) := by
  rw [Work.bind_runOn, editSection_of_some hconnection]
  refine editSection_of_some ?_ _
  rw [sectionFields?_put_of_ne _ _ (by decide), hdefinitions]

/-- The fields of the first section with a convention. -/
def withBulk (fields : Entries Json) (convention : Option Convention) : Entries Json :=
  match convention.map Convention.isBulk with
  | some value => Entries.put fields "bulk" (.bool value)
  | none => Entries.remove fields "bulk"

/-- The fields of the first section with an endpoint and perhaps headers. -/
def withEndpoint (fields : Entries Json) (artifacts : ConnectionArtifacts) : Entries Json :=
  let patched := Entries.put (Entries.remove (Entries.remove fields "url") "toUrl")
    (endpointField artifacts.endpoint).1 (endpointField artifacts.endpoint).2
  match artifacts.headers with
  | some headers => Entries.put patched "headers" headers
  | none => patched

theorem transform_runOn {document : Document} {connection definitions : Entries Json}
    (hconnection : sectionFields? document connectionName = some connection)
    (hdefinitions : sectionFields? document contextDefinitionName = some definitions)
    (artifacts : TransformArtifacts) :
    Work.runOn artifacts.apply document =
      (.ok (), withSections
        (Entries.put (withSections document connection definitions) "transform"
          (transformValue artifacts.default artifacts.errorHandlers))
        (withBulk connection artifacts.convention) (merged definitions artifacts.schema)) := by
  unfold TransformArtifacts.apply
  rw [Work.bind_runOn, materialize_runOn hconnection hdefinitions]
  show Work.runOn (setTransform _ _ >>= _) _ = _
  rw [Work.bind_runOn]
  show Work.runOn (editSection connectionName _ >>= _) (Entries.put _ "transform" _) = _
  rw [editBoth_runOn
    (by rw [sectionFields?_put_of_ne _ _ (by decide), sectionFields?_withSections_connection])
    (by rw [sectionFields?_put_of_ne _ _ (by decide), sectionFields?_withSections_definitions])]
  rfl

theorem connection_runOn {document : Document} {connection definitions : Entries Json}
    (hconnection : sectionFields? document connectionName = some connection)
    (hdefinitions : sectionFields? document contextDefinitionName = some definitions)
    (artifacts : ConnectionArtifacts) :
    Work.runOn artifacts.apply document =
      (.ok (), withSections (withSections document connection definitions)
        (withEndpoint connection artifacts) (merged definitions artifacts.schema)) := by
  unfold ConnectionArtifacts.apply
  rw [Work.bind_runOn, materialize_runOn hconnection hdefinitions]
  show Work.runOn (editSection connectionName _ >>= _) _ = _
  rw [editBoth_runOn (sectionFields?_withSections_connection _ _ _)
    (sectionFields?_withSections_definitions _ _ _)]
  rfl

/-! ## The fields that an update writes -/

theorem get?_withBulk (fields : Entries Json) (convention : Option Convention) (key : String) :
    Entries.get? (withBulk fields convention) key =
      if key = "bulk" then convention.map fun convention => .bool convention.isBulk
      else Entries.get? fields key := by
  unfold withBulk
  cases convention with
  | none => exact Entries.get?_remove fields "bulk" key
  | some convention => exact Entries.get?_put fields "bulk" key (.bool convention.isBulk)

theorem get?_withEndpoint (fields : Entries Json) (artifacts : ConnectionArtifacts)
    (key : String) :
    Entries.get? (withEndpoint fields artifacts) key =
      if key = "headers" then artifacts.headers.or (Entries.get? fields "headers")
      else if key = (endpointField artifacts.endpoint).1 then
        some (endpointField artifacts.endpoint).2
      else if key = "url" ∨ key = "toUrl" then none
      else Entries.get? fields key := by
  have hendpoint : (endpointField artifacts.endpoint).1 ≠ "headers" := by
    cases artifacts.endpoint <;> simp [endpointField]
  have hpatched (key : String) :
      Entries.get? (Entries.put (Entries.remove (Entries.remove fields "url") "toUrl")
        (endpointField artifacts.endpoint).1 (endpointField artifacts.endpoint).2) key =
      if key = (endpointField artifacts.endpoint).1 then
        some (endpointField artifacts.endpoint).2
      else if key = "url" ∨ key = "toUrl" then none
      else Entries.get? fields key := by
    rw [Entries.get?_put, Entries.get?_remove, Entries.get?_remove]
    by_cases hurl : key = "url" <;> by_cases htoUrl : key = "toUrl" <;> simp [hurl, htoUrl]
  unfold withEndpoint
  cases hheaders : artifacts.headers with
  | none =>
    show Entries.get? _ key = _
    rw [hpatched]
    by_cases hkey : key = "headers"
    · subst hkey
      simp [hendpoint.symm]
    · simp [hkey]
  | some headers =>
    show Entries.get? (Entries.put _ "headers" headers) key = _
    rw [Entries.get?_put, hpatched]
    rfl

theorem get?_merged (definitions : Entries Json) (u : Update) (name : String) :
    Entries.get? (merged definitions u.schema) name =
      ((u.definition? name).map Variable.toJson).or (Entries.get? definitions name) := by
  unfold merged Update.definition?
  rw [Entries.get?_putAll, ← Entries.mapValues_ofList, Entries.get?_mapValues]

/-- A document with new sections, of which the rest is as before but for the transform functions. -/
theorem updated_of_sections {document base : Document} {connection definitions fields : Entries Json}
    (hconnection : sectionFields? document connectionName = some connection)
    (hdefinitions : sectionFields? document contextDefinitionName = some definitions)
    (u : Update)
    (htransform : Entries.get? base "transform" =
      u.transform?.elim (Entries.get? document "transform") fun artifacts =>
        some (transformValue artifacts.default artifacts.errorHandlers))
    (hroot : ∀ key, key ∉ ["transform", connectionName, contextDefinitionName] →
      Entries.get? base key = Entries.get? document key)
    (hbulk : Entries.get? fields "bulk" =
      u.transform?.elim (Entries.get? connection "bulk") fun artifacts =>
        artifacts.convention.map fun convention => .bool convention.isBulk)
    (hurl : Entries.get? fields "url" =
      u.connection?.elim (Entries.get? connection "url") fun artifacts =>
        match artifacts.endpoint with
        | .url text => some (.string text)
        | .toUrl _ => none)
    (htoUrl : Entries.get? fields "toUrl" =
      u.connection?.elim (Entries.get? connection "toUrl") fun artifacts =>
        match artifacts.endpoint with
        | .url _ => none
        | .toUrl body => some (.string body))
    (hheaders : Entries.get? fields "headers" =
      u.headers?.or (Entries.get? connection "headers"))
    (hothers : ∀ key, key ∉ ["bulk", "url", "toUrl", "headers"] →
      Entries.get? fields key = Entries.get? connection key) :
    Updated document [u] (withSections base fields (merged definitions u.schema)) := by
  have hfield (key : String) :
      (withSections base fields (merged definitions u.schema)).field? "connection" key =
        Entries.get? fields key :=
    field?_eq (sectionFields?_withSections_connection _ _ _) key
  have hbefore (key : String) : document.field? "connection" key = Entries.get? connection key :=
    field?_eq hconnection key
  exact
    { isEditable := fun _ => (isEditable_iff _).2 ⟨_, _,
        sectionFields?_withSections_connection _ _ _, sectionFields?_withSections_definitions _ _ _⟩
      transform := by
        rw [lastSaid_singleton, get?_withSections _ _ _ (by decide) (by decide), htransform]
        cases u with
        | transform artifacts =>
          obtain ⟨default, _, _, _⟩ := artifacts
          cases default <;> rfl
        | connection artifacts => rfl
      bulk := by
        rw [lastSaid_singleton, hfield, hbulk, hbefore]
        cases u with
        | transform artifacts =>
          obtain ⟨_, _, convention, _⟩ := artifacts
          rcases convention with _ | _ | _ <;> rfl
        | connection artifacts => rfl
      url := by rw [lastSaid_singleton, hfield, hurl, hbefore]
      toUrl := by rw [lastSaid_singleton, hfield, htoUrl, hbefore]
      headers := by rw [lastSaid_singleton, hfield, hheaders, hbefore]
      definition := fun name => by
        have hafter : (withSections base fields (merged definitions u.schema)).field?
            "contextDefinition" name = Entries.get? (merged definitions u.schema) name :=
          field?_eq (sectionFields?_withSections_definitions _ _ _) name
        have hbefore : document.field? "contextDefinition" name = Entries.get? definitions name :=
          field?_eq hdefinitions name
        rw [lastSaid_singleton, hafter, get?_merged, hbefore, funext toJson_eq]
      otherConnection := fun key hkey => by
        rw [hfield, hothers key hkey, hbefore]
      otherRoot := fun key hkey => by
        have hdistinct := hkey
        simp only [List.mem_cons, List.not_mem_nil, or_false, not_or] at hdistinct
        rw [get?_withSections _ _ _ hdistinct.2.1 hdistinct.2.2, hroot key hkey] }

/-- Every update of an editable document succeeds, and decides what it writes. -/
theorem update_of_isEditable {document : Document} (h : document.IsEditable) (u : Update) :
    (u.edit.apply document).1 = .ok () ∧
      Updated document [u] (u.edit.apply document).2 := by
  obtain ⟨connection, definitions, hconnection, hdefinitions⟩ := (isEditable_iff document).1 h
  cases u with
  | transform artifacts =>
    have hrun : Edit.apply (Update.transform artifacts).edit document = _ :=
      transform_runOn hconnection hdefinitions artifacts
    rw [hrun]
    refine ⟨rfl, updated_of_sections hconnection hdefinitions (.transform artifacts)
      (Entries.get?_put_self _ _ _) (fun key hkey => ?_) ?_ ?_ ?_ ?_ fun key hkey => ?_⟩
    · simp only [List.mem_cons, List.not_mem_nil, or_false, not_or] at hkey
      rw [Entries.get?_put_of_ne _ _ hkey.1, get?_withSections _ _ _ hkey.2.1 hkey.2.2]
    · rw [get?_withBulk, if_pos rfl]
      rfl
    · rw [get?_withBulk, if_neg (by decide)]
      rfl
    · rw [get?_withBulk, if_neg (by decide)]
      rfl
    · rw [get?_withBulk, if_neg (by decide)]
      rfl
    · simp only [List.mem_cons, List.not_mem_nil, or_false, not_or] at hkey
      rw [get?_withBulk, if_neg hkey.1]
  | connection artifacts =>
    have hrun : Edit.apply (Update.connection artifacts).edit document = _ :=
      connection_runOn hconnection hdefinitions artifacts
    rw [hrun]
    refine ⟨rfl, updated_of_sections hconnection hdefinitions (.connection artifacts)
      (get?_withSections _ _ _ (by decide) (by decide)) (fun key hkey => ?_) ?_ ?_ ?_ ?_
      fun key hkey => ?_⟩
    · simp only [List.mem_cons, List.not_mem_nil, or_false, not_or] at hkey
      rw [get?_withSections _ _ _ hkey.2.1 hkey.2.2]
    · rw [get?_withEndpoint]
      cases artifacts.endpoint <;> simp [endpointField, Update.transform?]
    · rw [get?_withEndpoint]
      cases h : artifacts.endpoint <;> simp [endpointField, Update.connection?, h]
    · rw [get?_withEndpoint]
      cases h : artifacts.endpoint <;> simp [endpointField, Update.connection?, h]
    · rw [get?_withEndpoint, if_pos rfl]
      rfl
    · simp only [List.mem_cons, List.not_mem_nil, or_false, not_or] at hkey
      rw [get?_withEndpoint]
      cases artifacts.endpoint <;> simp [endpointField, hkey]

/-- Both kinds of update look at the sections first. -/
theorem materialize_of_not_isEditable {document : Document} (h : ¬ document.IsEditable) :
    ∃ error after, Work.runOn materialize document = (.error error, after) ∧
      ¬ after.IsEditable := by
  unfold materialize
  rw [Work.bind_runOn, editSection_runOn]
  cases hconnection : sectionFields? document connectionName with
  | none => exact ⟨_, _, rfl, h⟩
  | some connection =>
    have hdefinitions : sectionFields?
        (Entries.put document connectionName (.object connection)) contextDefinitionName =
          none := by
      rw [sectionFields?_put_of_ne _ _ (by decide)]
      cases hdefinitions : sectionFields? document contextDefinitionName with
      | none => rfl
      | some definitions =>
        exact absurd ((isEditable_iff document).2 ⟨_, _, hconnection, hdefinitions⟩) h
    show ∃ error after, Work.runOn (editSection contextDefinitionName id) _ = _ ∧ _
    rw [editSection_runOn]
    simp only [id, hdefinitions]
    refine ⟨_, _, rfl, fun heditable => ?_⟩
    obtain ⟨_, definitions, _, hsome⟩ := (isEditable_iff _).1 heditable
    rw [hdefinitions] at hsome
    cases hsome

/-- An update of a document with a faulty section fails, and the section stays faulty. -/
theorem update_of_not_isEditable {document : Document} (h : ¬ document.IsEditable) (u : Update) :
    (u.edit.apply document).1 ≠ .ok () ∧ ¬ (u.edit.apply document).2.IsEditable := by
  obtain ⟨error, after, hrun, hafter⟩ := materialize_of_not_isEditable h
  have happly : u.edit.apply document = (.error error, after) := by
    cases u with
    | transform artifacts =>
      show Work.runOn artifacts.apply document = _
      unfold TransformArtifacts.apply
      rw [Work.bind_runOn, hrun]
    | connection artifacts =>
      show Work.runOn artifacts.apply document = _
      unfold ConnectionArtifacts.apply
      rw [Work.bind_runOn, hrun]
  rw [happly]
  refine ⟨fun hok => ?_, hafter⟩
  cases hok

/-! ## Runs of updates -/

theorem update_cons (document : Document) (u : Update) (rest : List Update) :
    document.update (u :: rest) =
      ((u.edit.apply document).1 :: ((u.edit.apply document).2.update rest).1,
        ((u.edit.apply document).2.update rest).2) := rfl

theorem updated_update {document : Document} (h : document.IsEditable) (updates : List Update) :
    (∀ outcome ∈ (document.update updates).1, outcome = .ok ()) ∧
      Updated document updates (document.update updates).2 := by
  induction updates generalizing document with
  | nil => exact ⟨fun _ hmem => absurd hmem List.not_mem_nil, Updated.refl document⟩
  | cons u rest ih =>
    obtain ⟨hok, hupdated⟩ := update_of_isEditable h u
    obtain ⟨hrest, hafter⟩ := ih (hupdated.isEditable h)
    rw [update_cons]
    refine ⟨fun outcome hmem => ?_, hupdated.trans hafter⟩
    rcases List.mem_cons.1 hmem with rfl | hmem
    · exact hok
    · exact hrest outcome hmem

theorem update_ne_ok {document : Document} (h : ¬ document.IsEditable) (updates : List Update) :
    ∀ outcome ∈ (document.update updates).1, outcome ≠ .ok () := by
  induction updates generalizing document with
  | nil => exact fun _ hmem => absurd hmem List.not_mem_nil
  | cons u rest ih =>
    obtain ⟨hfails, hstays⟩ := update_of_not_isEditable h u
    rw [update_cons]
    intro outcome hmem
    rcases List.mem_cons.1 hmem with rfl | hmem
    · exact hfails
    · exact ih hstays outcome hmem

/-- Whatever is written into a document, in whatever order: each update succeeds exactly if the
sections are missing or objects, and then the last update that writes a field decides it, and
nothing else does. -/
theorem update_succeeds_iff_and_last_write_wins (document : Document) (updates : List Update) :
    (∀ outcome ∈ (document.update updates).1, outcome = .ok () ↔ document.IsEditable) ∧
      (document.IsEditable → Updated document updates (document.update updates).2) := by
  refine ⟨fun outcome hmem => ⟨fun hok => ?_, fun h => ?_⟩, fun h => (updated_update h updates).2⟩
  · by_contra h
    exact update_ne_ok h updates outcome hmem hok
  · exact (updated_update h updates).1 outcome hmem

/-- A template that its author has written by hand, of which one section is missing. -/
def handwritten : Document :=
  [("vendor", .string "acme"),
    ("connection", .object [("method", .string "GET"), ("url", .string "http://old"),
      ("bulk", .bool true)])]

/-- Updates of which the third takes back the address of the first, and the fourth the functions of
the second and their convention. -/
def updatesInTurn : List Update :=
  [.connection ⟨.url "http://new", some (.object []), [("limit", .ofDescription "Limit")]⟩,
    .transform ⟨some "return []", [], some .batch, []⟩,
    .connection ⟨.toUrl "return ctx.host", none, [("host", .ofDescription "Host")]⟩,
    .transform ⟨none, [("404", "return []")], none, [("limit", .ofDescription "Most")]⟩]

theorem updates_in_turn_last_write_wins :
    (∀ outcome ∈ (handwritten.update updatesInTurn).1, outcome = .ok ()) ∧
      Updated handwritten updatesInTurn (handwritten.update updatesInTurn).2 ∧
      (handwritten.update updatesInTurn).2.field? "connection" "url" = none ∧
      Entries.get? (handwritten.update updatesInTurn).2 "transform" =
        some (.object [("errorHandlers", .object [("404", .string "return []")])]) ∧
      (handwritten.update updatesInTurn).2.field? "contextDefinition" "limit" =
        some (.object [("description", .string "Most")]) := by
  have h : handwritten.IsEditable := (isEditable_iff _).2 ⟨_, _, rfl, rfl⟩
  obtain ⟨hok, hupdated⟩ := update_succeeds_iff_and_last_write_wins handwritten updatesInTurn
  exact ⟨fun outcome hmem => (hok outcome hmem).2 h, hupdated h, (hupdated h).url,
    (hupdated h).transform, (hupdated h).definition "limit"⟩

end Document

end Collector
