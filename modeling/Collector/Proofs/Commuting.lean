import Collector.Proofs.Context.Schema
import Collector.Proofs.Updates

/-!
# The order of the two groups

A transform group and a connection group write into the same sections of a template, and only a
context variable that both of them define is written by both. The check for conflicts looks at the
description, at `required` and at the default of such a variable, and at nothing else.

* `Update.WellFormed` are updates whose names stand once each, and `update_wellFormed` keeps
  documents well-formed.
* `same_iff_of_sections` compares documents with both sections.
* `updates_commute_iff_shared_same` says when the order of the two groups does not matter, and what
  does not depend on it in any case.
* `updates_differ_encrypted` is a pair of groups that pass the check and for which it matters.
-/

namespace Collector

/-! ## Well-formed updates -/

/-- Whether an update writes each name once, and well-formed values only. -/
def Update.WellFormed : Update → Prop
  | .transform artifacts =>
    (Entries.names artifacts.errorHandlers).Nodup ∧ artifacts.schema.WellFormed
  | .connection artifacts =>
    (∀ headers, artifacts.headers = some headers → headers.WellFormed) ∧
      artifacts.schema.WellFormed

theorem Update.WellFormed.schema {u : Update} (h : u.WellFormed) : u.schema.WellFormed := by
  cases u with
  | transform artifacts => exact h.2
  | connection artifacts => exact h.2

theorem Update.WellFormed.definition?_eq {u : Update} (h : u.WellFormed) (name : String) :
    u.definition? name = Entries.get? u.schema name := by
  unfold Update.definition?
  rw [Entries.ofList_of_nodup h.schema.nodup]

namespace Document

theorem sectionFields?_wellFormed {document : Document}
    (h : (Json.object document).WellFormed) {name : String} {fields : Entries Json}
    (hfields : sectionFields? document name = some fields) : (Json.object fields).WellFormed := by
  unfold sectionFields? at hfields
  cases hvalue : Entries.get? document name with
  | none =>
    rw [hvalue] at hfields
    obtain rfl := Option.some.inj hfields
    exact Json.wellFormed_empty
  | some value =>
    rw [hvalue] at hfields
    have hwell := h.field hvalue
    cases value with
    | object found =>
      obtain rfl := Option.some.inj hfields
      exact hwell
    | _ => cases hfields

theorem field?_wellFormed {document : Document} (h : (Json.object document).WellFormed)
    {sectionName key : String} {value : Json} (hvalue : document.field? sectionName key = some value) :
    value.WellFormed := by
  obtain ⟨fields, hfields, hvalue⟩ := Option.bind_eq_some_iff.1 hvalue
  exact (sectionFields?_wellFormed h hfields).field hvalue

theorem withSections_wellFormed {document : Document} (h : (Json.object document).WellFormed)
    {connection definitions : Entries Json} (hconnection : (Json.object connection).WellFormed)
    (hdefinitions : (Json.object definitions).WellFormed) :
    (Json.object (withSections document connection definitions)).WellFormed :=
  (h.put _ hconnection).put _ hdefinitions

theorem withBulk_wellFormed {fields : Entries Json} (h : (Json.object fields).WellFormed)
    (convention : Option Convention) : (Json.object (withBulk fields convention)).WellFormed := by
  unfold withBulk
  split
  · exact h.put _ trivial
  · exact h.remove _

theorem withEndpoint_wellFormed {fields : Entries Json} (h : (Json.object fields).WellFormed)
    {artifacts : ConnectionArtifacts}
    (hheaders : ∀ headers, artifacts.headers = some headers → headers.WellFormed) :
    (Json.object (withEndpoint fields artifacts)).WellFormed := by
  have hendpoint : (endpointField artifacts.endpoint).2.WellFormed := by
    cases artifacts.endpoint <;> trivial
  have hpatched := ((h.remove "url").remove "toUrl").put (endpointField artifacts.endpoint).1
    hendpoint
  unfold withEndpoint
  cases hvalue : artifacts.headers with
  | none => exact hpatched
  | some headers => exact hpatched.put _ (hheaders headers hvalue)

theorem merged_wellFormed {definitions : Entries Json} (h : (Json.object definitions).WellFormed)
    {schema : Schema} (hschema : schema.WellFormed) :
    (Json.object (merged definitions schema)).WellFormed := by
  refine h.putAll fun addition haddition => ?_
  obtain ⟨entry, hentry, rfl⟩ := List.mem_map.1 haddition
  exact (hschema.wellFormed entry hentry).toJson

theorem transformValue_wellFormed (default : Option String) {handlers : Entries String}
    (h : (Entries.names handlers).Nodup) : (transformValue default handlers).WellFormed := by
  have hhandlers : (Json.object (Entries.mapValues Json.string handlers)).WellFormed := by
    refine (Json.wellFormed_object_iff _).2 ⟨?_, fun field hfield => ?_⟩
    · rw [Entries.names_mapValues]
      exact h
    · obtain ⟨entry, -, rfl⟩ := List.mem_map.1 hfield
      trivial
  refine (Json.wellFormed_object_iff _).2 ?_
  cases default with
  | none => simpa using hhandlers
  | some body => simpa using ⟨trivial, hhandlers⟩

/-! ## Documents behind updates -/

/-- An update leaves both sections written out, and a document well-formed that was so before. -/
theorem update_sections {document : Document} (h : document.IsEditable) (u : Update) :
    ∃ connection definitions,
      Entries.get? (u.edit.apply document).2 connectionName = some (.object connection) ∧
        Entries.get? (u.edit.apply document).2 contextDefinitionName =
          some (.object definitions) ∧
        ((Json.object document).WellFormed → u.WellFormed →
          (Json.object (u.edit.apply document).2).WellFormed) := by
  obtain ⟨connection, definitions, hconnection, hdefinitions⟩ := (isEditable_iff document).1 h
  have hwritten (base : Document) (fields others : Entries Json) :
      Entries.get? (withSections base fields others) connectionName = some (.object fields) ∧
        Entries.get? (withSections base fields others) contextDefinitionName =
          some (.object others) := by
    unfold withSections
    rw [Entries.get?_put_of_ne _ _ (by decide), Entries.get?_put_self, Entries.get?_put_self]
    exact ⟨rfl, rfl⟩
  cases u with
  | transform artifacts =>
    have hrun : Edit.apply (Update.transform artifacts).edit document = _ :=
      transform_runOn hconnection hdefinitions artifacts
    rw [hrun]
    refine ⟨_, _, (hwritten _ _ _).1, (hwritten _ _ _).2, fun hdocument hu => ?_⟩
    have hfields := sectionFields?_wellFormed hdocument hconnection
    have hothers := sectionFields?_wellFormed hdocument hdefinitions
    exact withSections_wellFormed ((withSections_wellFormed hdocument hfields hothers).put _
      (transformValue_wellFormed _ hu.1)) (withBulk_wellFormed hfields _)
      (merged_wellFormed hothers hu.2)
  | connection artifacts =>
    have hrun : Edit.apply (Update.connection artifacts).edit document = _ :=
      connection_runOn hconnection hdefinitions artifacts
    rw [hrun]
    refine ⟨_, _, (hwritten _ _ _).1, (hwritten _ _ _).2, fun hdocument hu => ?_⟩
    have hfields := sectionFields?_wellFormed hdocument hconnection
    have hothers := sectionFields?_wellFormed hdocument hdefinitions
    exact withSections_wellFormed (withSections_wellFormed hdocument hfields hothers)
      (withEndpoint_wellFormed hfields hu.1) (merged_wellFormed hothers hu.2)

theorem update_wellFormed {document : Document} (hdocument : (Json.object document).WellFormed)
    (heditable : document.IsEditable) {updates : List Update}
    (hupdates : ∀ u ∈ updates, u.WellFormed) :
    (Json.object (document.update updates).2).WellFormed := by
  induction updates generalizing document with
  | nil => exact hdocument
  | cons u rest ih =>
    obtain ⟨hu, hrest⟩ := List.forall_mem_cons.1 hupdates
    obtain ⟨_, _, -, -, hwell⟩ := update_sections heditable u
    obtain ⟨-, hupdated⟩ := update_of_isEditable heditable u
    exact ih (hwell hdocument hu) (hupdated.isEditable heditable) hrest

/-! ## Comparing documents -/

/-- Whether both sections of a document are objects. -/
structure HasSections (document : Document) (connection definitions : Entries Json) : Prop where
  connection : Entries.get? document connectionName = some (.object connection)
  definitions : Entries.get? document contextDefinitionName = some (.object definitions)

theorem HasSections.field?_connection {document : Document}
    {connection definitions : Entries Json} (h : document.HasSections connection definitions)
    (key : String) : document.field? connectionName key = Entries.get? connection key := by
  refine field?_eq ?_ key
  unfold sectionFields?
  rw [h.connection]
  rfl

theorem HasSections.field?_definitions {document : Document}
    {connection definitions : Entries Json} (h : document.HasSections connection definitions)
    (key : String) : document.field? contextDefinitionName key = Entries.get? definitions key := by
  refine field?_eq ?_ key
  unfold sectionFields?
  rw [h.definitions]
  rfl

/-- The sections that two updates in a row leave. -/
theorem update_pair_hasSections {document : Document} (h : document.IsEditable) (u v : Update) :
    ∃ connection definitions, (document.update [u, v]).2.HasSections connection definitions := by
  obtain ⟨-, hupdated⟩ := update_of_isEditable h u
  obtain ⟨connection, definitions, hconnection, hdefinitions, -⟩ :=
    update_sections (hupdated.isEditable h) v
  exact ⟨connection, definitions, hconnection, hdefinitions⟩

section Comparing

variable {first second : Document} {connection definitions connection' definitions' : Entries Json}

/-- Documents with equal definitions and equal other fields are equal. -/
theorem same_iff_of_sections (hfirst : (Json.object first).WellFormed)
    (hsecond : (Json.object second).WellFormed) (h : first.HasSections connection definitions)
    (h' : second.HasSections connection' definitions')
    (hothers : ∀ key, key ≠ contextDefinitionName →
      Json.SameOption (Entries.get? first key) (Entries.get? second key)) :
    (Json.object first).same (.object second) = true ↔
      ∀ name, Json.SameOption (first.field? contextDefinitionName name)
        (second.field? contextDefinitionName name) := by
  have hfields := hfirst.field h.definitions
  have hfields' := hsecond.field h'.definitions
  have hdefinitions : (Json.object definitions).same (.object definitions') = true ↔
      ∀ name, Json.SameOption (first.field? contextDefinitionName name)
        (second.field? contextDefinitionName name) := by
    simp only [h.field?_definitions, h'.field?_definitions]
    exact Json.same_object_iff hfields.nodup hfields'.nodup
  rw [Json.same_object_iff hfirst.nodup hsecond.nodup, ← hdefinitions]
  constructor
  · intro hsame
    have hname := hsame contextDefinitionName
    rw [h.definitions, h'.definitions] at hname
    cases hname with
    | some hdefinitions => exact hdefinitions
  · intro hsame key
    by_cases hkey : key = contextDefinitionName
    · rw [hkey, h.definitions, h'.definitions]
      exact .some hsame
    · exact hothers key hkey

/-- Documents with equal fields in the section for requests have equal sections. -/
theorem sameOption_connection (hfirst : (Json.object first).WellFormed)
    (hsecond : (Json.object second).WellFormed) (h : first.HasSections connection definitions)
    (h' : second.HasSections connection' definitions')
    (hsame : ∀ key, first.field? connectionName key = second.field? connectionName key) :
    Json.SameOption (Entries.get? first connectionName) (Entries.get? second connectionName) := by
  have hfields := hfirst.field h.connection
  have hfields' := hsecond.field h'.connection
  rw [h.connection, h'.connection]
  refine .some ((Json.same_object_iff hfields.nodup hfields'.nodup).2 fun key => ?_)
  rw [← h.field?_connection, ← h'.field?_connection]
  exact .of_eq (hsame key) fun value hvalue => field?_wellFormed hfirst hvalue

end Comparing

/-! ## Two updates in either order -/

theorem lastSaid_pair {α : Type} (said : Update → Option α) (u v : Update) :
    lastSaid said [u, v] = (said v).or (said u) := by
  rw [show [u, v] = [u] ++ [v] from rfl, lastSaid_append, lastSaid_singleton, lastSaid_singleton]

section Orders

variable {document first second : Document} {t : TransformArtifacts} {c : ConnectionArtifacts}

/-- The fields of the section for requests do not depend on the order. -/
theorem field?_connection_comm
    (h : Updated document [.transform t, .connection c] first)
    (h' : Updated document [.connection c, .transform t] second) (key : String) :
    first.field? connectionName key = second.field? connectionName key := by
  show first.field? "connection" key = second.field? "connection" key
  by_cases hbulk : key = "bulk"
  · rw [hbulk, h.bulk, h'.bulk]
    rfl
  · by_cases hurl : key = "url"
    · rw [hurl, h.url, h'.url]
      rfl
    · by_cases htoUrl : key = "toUrl"
      · rw [htoUrl, h.toUrl, h'.toUrl]
        rfl
      · by_cases hheaders : key = "headers"
        · rw [hheaders, h.headers, h'.headers]
          rw [lastSaid_pair, lastSaid_pair]
          show ((Update.connection c).headers?.or none).or _ =
            ((none : Option Json).or (Update.connection c).headers?).or _
          rw [Option.or_none, Option.none_or]
        · have hkey : key ∉ ["bulk", "url", "toUrl", "headers"] := by
            simp [hbulk, hurl, htoUrl, hheaders]
          rw [h.otherConnection key hkey, h'.otherConnection key hkey]

/-- The root fields but the sections do not depend on the order. -/
theorem get?_root_comm (h : Updated document [.transform t, .connection c] first)
    (h' : Updated document [.connection c, .transform t] second) {key : String}
    (hconnection : key ≠ connectionName) (hdefinitions : key ≠ contextDefinitionName) :
    Entries.get? first key = Entries.get? second key := by
  by_cases htransform : key = "transform"
  · rw [htransform, h.transform, h'.transform]
    rfl
  · have hkey : key ∉ ["transform", connectionName, contextDefinitionName] := by
      simp [htransform, hconnection, hdefinitions]
    rw [h.otherRoot key hkey, h'.otherRoot key hkey]

/-- What two updates leave under a name is what the later one of them says. -/
theorem field?_definition_pair {u v : Update} (hu : u.WellFormed) (hv : v.WellFormed)
    (h : Updated document [u, v] first) (name : String) :
    first.field? contextDefinitionName name =
      (((Entries.get? v.schema name).or (Entries.get? u.schema name)).map Variable.toJson).or
        (document.field? contextDefinitionName name) := by
  rw [h.field?_definition name, lastSaid_pair, hu.definition?_eq, hv.definition?_eq]

end Orders

/-- The order of two groups that have passed the check for conflicts changes at most how the
variables are written that both of them define. So the two documents are equal exactly if each of
these is written as the same value by both groups, which it is if the groups also agree in whether
it is encrypted and in the fields without a meaning. -/
theorem updates_commute_iff_shared_same {document : Document}
    (hdocument : (Json.object document).WellFormed) (heditable : document.IsEditable)
    {t : TransformArtifacts} {c : ConnectionArtifacts} (ht : (Update.transform t).WellFormed)
    (hc : (Update.connection c).WellFormed)
    (hcheck : Schema.checkConflicts t.schema c.schema = .ok ()) :
    let first := document.update [.transform t, .connection c]
    let second := document.update [.connection c, .transform t]
    (∀ outcome ∈ first.1 ++ second.1, outcome = .ok ()) ∧
      (∀ key, key ≠ contextDefinitionName →
        Json.SameOption (Entries.get? first.2 key) (Entries.get? second.2 key)) ∧
      (∀ name, Entries.get? t.schema name = none ∨ Entries.get? c.schema name = none →
        Json.SameOption (first.2.field? contextDefinitionName name)
          (second.2.field? contextDefinitionName name)) ∧
      ((Json.object first.2).same (.object second.2) = true ↔
        ∀ name v w, Entries.get? t.schema name = some v → Entries.get? c.schema name = some w →
          v.toJson.same w.toJson = true) ∧
      ((∀ name v w, Entries.get? t.schema name = some v → Entries.get? c.schema name = some w →
          v.encrypted = w.encrypted ∧ (Json.object v.extra).same (.object w.extra) = true) →
        (Json.object first.2).same (.object second.2) = true) := by
  intro first second
  obtain ⟨hfirstOk, hfirst⟩ := updated_update heditable [.transform t, .connection c]
  obtain ⟨hsecondOk, hsecond⟩ := updated_update heditable [.connection c, .transform t]
  have hfirstWell : (Json.object first.2).WellFormed :=
    update_wellFormed hdocument heditable (by simp [ht, hc])
  have hsecondWell : (Json.object second.2).WellFormed :=
    update_wellFormed hdocument heditable (by simp [ht, hc])
  obtain ⟨_, _, hfirstSections⟩ :=
    update_pair_hasSections heditable (.transform t) (.connection c)
  obtain ⟨_, _, hsecondSections⟩ :=
    update_pair_hasSections heditable (.connection c) (.transform t)
  have hothers (key : String) (hkey : key ≠ contextDefinitionName) :
      Json.SameOption (Entries.get? first.2 key) (Entries.get? second.2 key) := by
    by_cases hconnection : key = connectionName
    · rw [hconnection]
      exact sameOption_connection hfirstWell hsecondWell hfirstSections hsecondSections
        (field?_connection_comm hfirst hsecond)
    · exact .of_eq (get?_root_comm hfirst hsecond hconnection hkey) fun value hvalue =>
        hfirstWell.field hvalue
  have hunshared (name : String)
      (hname : Entries.get? t.schema name = none ∨ Entries.get? c.schema name = none) :
      Json.SameOption (first.2.field? contextDefinitionName name)
        (second.2.field? contextDefinitionName name) := by
    refine .of_eq ?_ fun value hvalue => field?_wellFormed hfirstWell hvalue
    rw [field?_definition_pair ht hc hfirst, field?_definition_pair hc ht hsecond]
    show (((Entries.get? c.schema name).or (Entries.get? t.schema name)).map _).or _ =
      (((Entries.get? t.schema name).or (Entries.get? c.schema name)).map _).or _
    rcases hname with hnone | hnone
    · simp [hnone]
    · simp [hnone]
  have hshared (name : String) {v w : Variable} (hv : Entries.get? t.schema name = some v)
      (hw : Entries.get? c.schema name = some w) :
      first.2.field? contextDefinitionName name = some w.toJson ∧
        second.2.field? contextDefinitionName name = some v.toJson := by
    rw [field?_definition_pair ht hc hfirst, field?_definition_pair hc ht hsecond]
    show (((Entries.get? c.schema name).or (Entries.get? t.schema name)).map _).or _ = _ ∧
      (((Entries.get? t.schema name).or (Entries.get? c.schema name)).map _).or _ = _
    simp [hv, hw]
  have hsame : (Json.object first.2).same (.object second.2) = true ↔
      ∀ name v w, Entries.get? t.schema name = some v → Entries.get? c.schema name = some w →
        v.toJson.same w.toJson = true := by
    rw [same_iff_of_sections hfirstWell hsecondWell hfirstSections hsecondSections hothers]
    constructor
    · intro h name v w hv hw
      have hname := h name
      obtain ⟨hlater, hearlier⟩ := hshared name hv hw
      rw [hlater, hearlier] at hname
      cases hname with
      | some hjson =>
        exact Json.same_symm (hc.schema.definition hw).toJson (ht.schema.definition hv).toJson hjson
    · intro h name
      cases hv : Entries.get? t.schema name with
      | none => exact hunshared name (.inl hv)
      | some v =>
        cases hw : Entries.get? c.schema name with
        | none => exact hunshared name (.inr hw)
        | some w =>
          obtain ⟨hlater, hearlier⟩ := hshared name hv hw
          rw [hlater, hearlier]
          exact .some (Json.same_symm (ht.schema.definition hv).toJson
            (hc.schema.definition hw).toJson (h name v w hv hw))
  refine ⟨List.forall_mem_append.2 ⟨hfirstOk, hsecondOk⟩, hothers, hunshared, hsame,
    fun hagree => hsame.2 fun name v w hv hw => ?_⟩
  obtain ⟨hencrypted, hextra⟩ := hagree name v w hv hw
  exact Variable.same_toJson (ht.schema.definition hv) (hc.schema.definition hw)
    (Schema.agrees_of_checkConflicts hcheck hv hw) hencrypted hextra

/-- A transform group that keeps its variable secret. -/
def secretTransform : TransformArtifacts :=
  ⟨none, [], none, [("token", { Variable.ofDescription "Token" with encrypted := some true })]⟩

/-- A connection group with the same variable, which says nothing of secrecy. -/
def openConnection : ConnectionArtifacts :=
  ⟨.url "http://host", none, [("token", .ofDescription "Token")]⟩

/-- The two groups have no conflict, and yet the group that is written last decides whether the
variable is secret. -/
theorem updates_differ_encrypted :
    IsEditable [] ∧
      Schema.checkConflicts secretTransform.schema openConnection.schema = .ok () ∧
      (Json.object (update [] [.transform secretTransform, .connection openConnection]).2).same
        (.object (update [] [.connection openConnection, .transform secretTransform]).2) =
          false := by
  refine ⟨(isEditable_iff _).2 ⟨_, _, rfl, rfl⟩, ?_, ?_⟩
  · decide
  · decide

/-- A connection group that agrees with `secretTransform` in all of its variable. -/
def secretConnection : ConnectionArtifacts :=
  ⟨.toUrl "return ctx.token", none,
    [("host", .ofDescription "Host"),
      ("token", { Variable.ofDescription "Token" with encrypted := some true })]⟩

/-- Groups that agree may be written in either order. -/
theorem updates_commute_secret :
    Schema.checkConflicts secretTransform.schema secretConnection.schema = .ok () ∧
      (Json.object (handwritten.update
        [.transform secretTransform, .connection secretConnection]).2).same
        (.object (handwritten.update
          [.connection secretConnection, .transform secretTransform]).2) = true := by
  have hdocument : (Json.object handwritten).WellFormed := by
    simp [handwritten, Json.WellFormed, Json.WellFormedFields]
  have heditable : handwritten.IsEditable := (isEditable_iff _).2 ⟨_, _, rfl, rfl⟩
  have hcheck : Schema.checkConflicts secretTransform.schema secretConnection.schema = .ok () := by
    decide
  have hvariable (v : Variable) (hdefault : v.default = none) (hextra : v.extra = []) :
      v.WellFormed :=
    ⟨by simp [hdefault], by simp [hextra, Json.wellFormed_empty]⟩
  have ht : (Update.transform secretTransform).WellFormed :=
    ⟨List.nodup_nil, by decide, by simp [secretTransform, hvariable, Variable.ofDescription]⟩
  have hc : (Update.connection secretConnection).WellFormed :=
    ⟨by simp [secretConnection], by decide,
      by simp [secretConnection, hvariable, Variable.ofDescription]⟩
  obtain ⟨-, -, -, -, hsame⟩ :=
    updates_commute_iff_shared_same hdocument heditable ht hc hcheck
  refine ⟨hcheck, hsame fun name v w hv hw => ?_⟩
  simp only [secretTransform, secretConnection, Entries.get?_cons, Entries.get?_nil] at hv hw
  split at hv
  · rename_i hname
    subst hname
    obtain rfl := Option.some.inj hv
    obtain rfl := Option.some.inj hw
    exact ⟨rfl, rfl⟩
  · cases hv

end Document

end Collector
