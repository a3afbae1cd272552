import Collector.Proofs.Commuting

/-!
# Building once more

A build writes into the document that an earlier build has left. What an update writes stands there
already, so a second run finds each value in its place, with one exception: an endpoint is removed
and written at the end of its section. Headers that the first run has appended stand behind the
endpoint then, and the second run moves the endpoint behind them.

* `withEndpoint_withEndpoint` says when the section for requests is left as it is.
* `update_transform_twice`, `update_connection_twice` and `update_pair_twice` say what a second run
  makes of a whole document.
* `text_ne_of_field_ne` tells two documents apart by their texts.
* `rebuilding_keeps_text_iff` is the result, and `rebuilding_moves_endpoint` a build for which the
  text changes.
-/

namespace Collector

/-! ## The text of fields -/

namespace Json

theorem prettyFields_cons_of_ne_nil (depth : Nat) (entry : String × Json) {rest : Entries Json}
    (h : rest ≠ []) : prettyFields depth (entry :: rest) =
      lineBreak depth ++ quote entry.1 ++ ": " ++ prettyAt depth entry.2 ++ "," ++
        prettyFields depth rest := by
  rw [prettyFields]
  simp [h]

theorem prettyAt_object_of_ne_nil (depth : Nat) {fields : Entries Json} (h : fields ≠ []) :
    prettyAt depth (.object fields) =
      "\x7b" ++ prettyFields (depth + 1) fields ++ lineBreak depth ++ "\x7d" := by
  rw [prettyAt]
  simp [h]

/-- Fields are written one after another, so what comes first does not depend on what follows. -/
theorem exists_prettyFields_append (depth : Nat) (front : Entries Json) :
    ∃ text, ∀ rest, rest ≠ [] →
      prettyFields depth (front ++ rest) = text ++ prettyFields depth rest := by
  induction front with
  | nil => exact ⟨"", fun rest _ => String.empty_append.symm⟩
  | cons entry front ih =>
    obtain ⟨text, htext⟩ := ih
    refine ⟨lineBreak depth ++ quote entry.1 ++ ": " ++ prettyAt depth entry.2 ++ "," ++ text,
      fun rest hrest => ?_⟩
    have hne : front ++ rest ≠ [] := by simp [hrest]
    rw [List.cons_append, prettyFields_cons_of_ne_nil _ _ hne, htext rest hrest]
    simp only [String.append_assoc]

/-- A field begins with its name. -/
theorem exists_prettyFields_cons (depth : Nat) (entry : String × Json) (rest : Entries Json) :
    ∃ text, prettyFields depth (entry :: rest) =
      lineBreak depth ++ quote entry.1 ++ ": " ++ prettyAt depth entry.2 ++ text := by
  by_cases h : rest = []
  · subst h
    exact ⟨"", by simp [prettyFields]⟩
  · exact ⟨"," ++ prettyFields depth rest, by
      rw [prettyFields_cons_of_ne_nil _ _ h]
      simp only [String.append_assoc]⟩

end Json

namespace Document

/-- In a document with a section, all that stands before one of its fields is the same for any
field in that place. -/
theorem exists_text_before_field (front back : Document) (name : String) (others : Entries Json) :
    ∃ before, ∀ field rest, ∃ after,
      text (front ++ (name, .object (others ++ field :: rest)) :: back) =
        before ++ Json.quote field.1 ++ after := by
  obtain ⟨outer, houter⟩ := Json.exists_prettyFields_append 1 front
  obtain ⟨inner, hinner⟩ := Json.exists_prettyFields_append 2 others
  refine ⟨"\x7b" ++ outer ++ Json.lineBreak 1 ++ Json.quote name ++ ": \x7b" ++ inner ++
    Json.lineBreak 2, fun field rest => ?_⟩
  obtain ⟨behind, hbehind⟩ := Json.exists_prettyFields_cons 1
    (name, .object (others ++ field :: rest)) back
  obtain ⟨value, hvalue⟩ := Json.exists_prettyFields_cons 2 field rest
  have hsection : Json.prettyAt 1 (.object (others ++ field :: rest)) = _ :=
    Json.prettyAt_object_of_ne_nil 1 (by simp)
  refine ⟨": " ++ Json.prettyAt 2 field.2 ++ value ++ Json.lineBreak 1 ++ "\x7d" ++ behind ++
    Json.lineBreak 0 ++ "\x7d" ++ "\n", ?_⟩
  show Json.prettyAt 0 (.object _) ++ "\n" = _
  rw [Json.prettyAt_object_of_ne_nil 0 (by simp), houter _ (by simp), hbehind, hsection,
    hinner _ (by simp), hvalue]
  simp only [String.append_assoc]
  rfl

/-- Names that differ where their quoted forms do tell two documents apart. -/
theorem text_ne_of_field_ne (front back : Document) (name : String) (others : Entries Json)
    (first second : String × Json)
    (h : ∀ after after', Json.quote first.1 ++ after ≠ Json.quote second.1 ++ after')
    (rest rest' : Entries Json) :
    text (front ++ (name, .object (others ++ first :: rest)) :: back) ≠
      text (front ++ (name, .object (others ++ second :: rest')) :: back) := by
  obtain ⟨before, hbefore⟩ := exists_text_before_field front back name others
  obtain ⟨after, hafter⟩ := hbefore first rest
  obtain ⟨after', hafter'⟩ := hbefore second rest'
  rw [hafter, hafter', String.append_assoc, String.append_assoc]
  exact fun heq => h after after' (String.append_right_inj _ |>.1 heq)

/-! ## The section for requests -/

/-- The fields of the section for requests but an endpoint. -/
def withoutEndpoint (fields : Entries Json) : Entries Json :=
  Entries.remove (Entries.remove fields "url") "toUrl"

section Endpoint

variable (fields : Entries Json) (artifacts : ConnectionArtifacts)

theorem endpointField_notMem (endpoint : Endpoint) :
    (endpointField endpoint).1 ∉ Entries.names (withoutEndpoint fields) := by
  rw [← Entries.get?_eq_none_iff]
  unfold withoutEndpoint
  rw [Entries.get?_remove, Entries.get?_remove]
  cases endpoint <;> simp [endpointField]

theorem endpointField_ne_headers (endpoint : Endpoint) : (endpointField endpoint).1 ≠ "headers" := by
  cases endpoint <;> simp [endpointField]

theorem quote_headers_ne (endpoint : Endpoint) (after after' : String) :
    Json.quote "headers" ++ after ≠ Json.quote (endpointField endpoint).1 ++ after' := by
  intro heq
  have hchars := congrArg String.toList heq
  rw [String.toList_append, String.toList_append,
    show (Json.quote "headers").toList = '"' :: 'h' :: "eaders\"".toList by decide] at hchars
  cases endpoint with
  | url text =>
    have hurl : (Json.quote "url").toList = '"' :: 'u' :: "rl\"".toList := by decide
    rw [endpointField, hurl] at hchars
    simp at hchars
  | toUrl body =>
    have htoUrl : (Json.quote "toUrl").toList = '"' :: 't' :: "oUrl\"".toList := by decide
    rw [endpointField, htoUrl] at hchars
    simp at hchars

theorem headers_mem_withoutEndpoint :
    "headers" ∈ Entries.names (withoutEndpoint fields) ↔ "headers" ∈ Entries.names fields := by
  rw [Entries.mem_names_iff, Entries.mem_names_iff]
  unfold withoutEndpoint
  rw [Entries.get?_remove, Entries.get?_remove, if_neg (by decide), if_neg (by decide)]

theorem withoutEndpoint_append (others : Entries Json) :
    withoutEndpoint (fields ++ others) = withoutEndpoint fields ++ withoutEndpoint others := by
  unfold withoutEndpoint
  rw [Entries.remove_append, Entries.remove_append]

theorem withoutEndpoint_of_get? (hurl : Entries.get? fields "url" = none)
    (htoUrl : Entries.get? fields "toUrl" = none) : withoutEndpoint fields = fields := by
  unfold withoutEndpoint
  rw [Entries.remove_of_notMem (Entries.get?_eq_none_iff _ _ |>.1 hurl),
    Entries.remove_of_notMem (Entries.get?_eq_none_iff _ _ |>.1 htoUrl)]

theorem withoutEndpoint_withoutEndpoint :
    withoutEndpoint (withoutEndpoint fields) = withoutEndpoint fields :=
  withoutEndpoint_of_get? _
    ((Entries.get?_eq_none_iff _ _).2 (endpointField_notMem fields (.url "")))
    ((Entries.get?_eq_none_iff _ _).2 (endpointField_notMem fields (.toUrl "")))

theorem withoutEndpoint_endpointField (endpoint : Endpoint) :
    withoutEndpoint [endpointField endpoint] = [] := by
  cases endpoint <;> rfl

theorem withEndpoint_of_none (h : artifacts.headers = none) :
    withEndpoint fields artifacts = withoutEndpoint fields ++ [endpointField artifacts.endpoint] := by
  unfold withEndpoint
  rw [h]
  exact Entries.put_of_notMem (endpointField_notMem fields _) _

theorem withEndpoint_of_some {headers : Json} (h : artifacts.headers = some headers) :
    withEndpoint fields artifacts =
      Entries.put (withoutEndpoint fields ++ [endpointField artifacts.endpoint]) "headers"
        headers := by
  unfold withEndpoint
  rw [h]
  exact congrArg (Entries.put · "headers" headers)
    (Entries.put_of_notMem (endpointField_notMem fields _) _)

/-- Headers that stand there keep their place, in front of the endpoint. -/
theorem withEndpoint_of_mem {headers : Json} (h : artifacts.headers = some headers)
    (hmem : "headers" ∈ Entries.names fields) :
    withEndpoint fields artifacts =
      Entries.put (withoutEndpoint fields) "headers" headers ++
        [endpointField artifacts.endpoint] := by
  rw [withEndpoint_of_some fields artifacts h]
  exact Entries.put_append_of_mem ((headers_mem_withoutEndpoint fields).2 hmem) _ _

/-- Headers that do not stand there are appended, behind the endpoint. -/
theorem withEndpoint_of_notMem {headers : Json} (h : artifacts.headers = some headers)
    (hmem : "headers" ∉ Entries.names fields) :
    withEndpoint fields artifacts =
      withoutEndpoint fields ++ [endpointField artifacts.endpoint, ("headers", headers)] := by
  rw [withEndpoint_of_some fields artifacts h,
    Entries.put_append_of_notMem (fun h => hmem ((headers_mem_withoutEndpoint fields).1 h))]
  simp [Entries.put, endpointField_ne_headers]

theorem withoutEndpoint_put_headers (headers : Json) :
    withoutEndpoint (Entries.put (withoutEndpoint fields) "headers" headers) =
      Entries.put (withoutEndpoint fields) "headers" headers := by
  have habsent (endpoint : Endpoint) : Entries.get?
      (Entries.put (withoutEndpoint fields) "headers" headers) (endpointField endpoint).1 = none := by
    rw [Entries.get?_put, if_neg (endpointField_ne_headers endpoint)]
    exact (Entries.get?_eq_none_iff _ _).2 (endpointField_notMem fields endpoint)
  exact withoutEndpoint_of_get? _ (habsent (.url "")) (habsent (.toUrl ""))

/-- Without headers, or with headers that take the place of others, writing the endpoint once more
changes nothing. -/
theorem withEndpoint_twice
    (h : artifacts.headers.isSome = true → "headers" ∈ Entries.names fields) :
    withEndpoint (withEndpoint fields artifacts) artifacts = withEndpoint fields artifacts := by
  cases hheaders : artifacts.headers with
  | none =>
    rw [withEndpoint_of_none _ _ hheaders, withEndpoint_of_none _ _ hheaders,
      withoutEndpoint_append, withoutEndpoint_withoutEndpoint, withoutEndpoint_endpointField,
      List.append_nil]
  | some headers =>
    have hmem : "headers" ∈ Entries.names fields := h (by rw [hheaders]; rfl)
    have hput := Entries.mem_names_put_self (withoutEndpoint fields) "headers" headers
    have hagain : "headers" ∈ Entries.names (withEndpoint fields artifacts) := by
      rw [withEndpoint_of_mem _ _ hheaders hmem]
      exact List.mem_map.2 (by
        obtain ⟨entry, hentry, hname⟩ := List.mem_map.1 hput
        exact ⟨entry, List.mem_append_left _ hentry, hname⟩)
    rw [withEndpoint_of_mem _ _ hheaders hagain, withEndpoint_of_mem _ _ hheaders hmem,
      withoutEndpoint_append, withoutEndpoint_put_headers, withoutEndpoint_endpointField,
      List.append_nil, Entries.put_put]

/-- Headers that have been appended stand in front of the endpoint when it is written once more. -/
theorem withEndpoint_twice_of_notMem {headers : Json} (h : artifacts.headers = some headers)
    (hmem : "headers" ∉ Entries.names fields) :
    withEndpoint (withEndpoint fields artifacts) artifacts =
      withoutEndpoint fields ++ [("headers", headers), endpointField artifacts.endpoint] := by
  have hafter := withEndpoint_of_notMem fields artifacts h hmem
  have hagain : "headers" ∈ Entries.names (withEndpoint fields artifacts) := by
    rw [hafter]
    simp [Entries.names]
  have hrest : withoutEndpoint [endpointField artifacts.endpoint, ("headers", headers)] =
      [("headers", headers)] := by
    cases artifacts.endpoint <;> rfl
  have hput : Entries.put (withoutEndpoint fields ++ [("headers", headers)]) "headers" headers =
      withoutEndpoint fields ++ [("headers", headers)] := by
    rw [Entries.put_append_of_notMem fun hin => hmem ((headers_mem_withoutEndpoint fields).1 hin)]
    simp [Entries.put]
  rw [withEndpoint_of_mem _ _ h hagain, hafter, withoutEndpoint_append,
    withoutEndpoint_withoutEndpoint, hrest, hput, List.append_assoc]
  rfl

theorem headers_mem_withEndpoint (h : artifacts.headers.isSome = true) :
    "headers" ∈ Entries.names (withEndpoint fields artifacts) := by
  obtain ⟨headers, hheaders⟩ := Option.isSome_iff_exists.1 h
  rw [withEndpoint_of_some _ _ hheaders]
  exact Entries.mem_names_put_self _ _ _

theorem withBulk_of_get? {convention : Option Convention}
    (h : Entries.get? fields "bulk" = convention.map fun convention => .bool convention.isBulk) :
    withBulk fields convention = fields := by
  unfold withBulk
  cases convention with
  | none => exact Entries.remove_of_notMem ((Entries.get?_eq_none_iff _ _).1 h)
  | some convention => exact Entries.put_of_get? h

end Endpoint

/-! ## Whole documents -/

theorem hasSections_withSections (document : Document) (connection definitions : Entries Json) :
    (withSections document connection definitions).HasSections connection definitions where
  connection := by
    unfold withSections
    rw [Entries.get?_put_of_ne _ _ (by decide), Entries.get?_put_self]
  definitions := Entries.get?_put_self _ _ _

section Sections

variable {document : Document} {connection definitions : Entries Json}

theorem HasSections.connection_mem (h : document.HasSections connection definitions) :
    connectionName ∈ Entries.names document :=
  (Entries.mem_names_iff _ _).2 ⟨_, h.connection⟩

theorem HasSections.definitions_mem (h : document.HasSections connection definitions) :
    contextDefinitionName ∈ Entries.names document :=
  (Entries.mem_names_iff _ _).2 ⟨_, h.definitions⟩

theorem HasSections.sectionFields?_connection (h : document.HasSections connection definitions) :
    sectionFields? document connectionName = some connection := by
  unfold sectionFields?
  rw [h.connection]
  rfl

theorem HasSections.sectionFields?_definitions (h : document.HasSections connection definitions) :
    sectionFields? document contextDefinitionName = some definitions := by
  unfold sectionFields?
  rw [h.definitions]
  rfl

theorem HasSections.withSections_eq (h : document.HasSections connection definitions) :
    withSections document connection definitions = document := by
  unfold withSections
  rw [Entries.put_of_get? h.connection, Entries.put_of_get? h.definitions]

theorem withSections_withSections (document : Document)
    (connection definitions connection' definitions' : Entries Json) :
    withSections (withSections document connection definitions) connection' definitions' =
      withSections document connection' definitions' := by
  have hswap (base : Document) (new : Json) :
      Entries.put (Entries.put (Entries.put base connectionName (.object connection))
        contextDefinitionName new) connectionName (.object connection') =
      Entries.put (Entries.put base connectionName (.object connection')) contextDefinitionName
        new := by
    rw [Entries.put_comm (Entries.mem_names_put_self _ _ _) (by decide), Entries.put_put]
  unfold withSections
  rw [hswap, Entries.put_put]

/-- In a document with both sections, writing the section for requests leaves the rest in place. -/
theorem HasSections.exists_withSections (h : document.HasSections connection definitions)
    (definitions' : Entries Json) :
    ∃ front back, ∀ fields, withSections document fields definitions' =
      front ++ (connectionName, .object fields) :: back := by
  have hmem := Entries.mem_names_put h.connection_mem contextDefinitionName (.object definitions')
  obtain ⟨front, back, hput⟩ := Entries.exists_put_eq hmem
  refine ⟨front, back, fun fields => ?_⟩
  unfold withSections
  rw [Entries.put_comm h.definitions_mem (by decide), hput]

/-- A document that a connection group has been written into is written out in the same text once
more exactly if no headers have been appended. -/
theorem HasSections.text_withEndpoint_iff (h : document.HasSections connection definitions)
    (fields definitions' : Entries Json) (artifacts : ConnectionArtifacts) :
    text (withSections document (withEndpoint (withEndpoint fields artifacts) artifacts)
        definitions') = text (withSections document (withEndpoint fields artifacts) definitions') ↔
      (artifacts.headers.isSome = true → "headers" ∈ Entries.names fields) := by
  constructor
  · intro heq hsome
    by_contra hmem
    obtain ⟨headers, hheaders⟩ := Option.isSome_iff_exists.1 hsome
    obtain ⟨front, back, hplace⟩ := h.exists_withSections definitions'
    rw [withEndpoint_twice_of_notMem _ _ hheaders hmem, withEndpoint_of_notMem _ _ hheaders hmem,
      hplace, hplace] at heq
    exact text_ne_of_field_ne front back connectionName (withoutEndpoint fields)
      ("headers", headers) (endpointField artifacts.endpoint)
      (quote_headers_ne artifacts.endpoint) _ _ heq
  · intro hheaders
    rw [withEndpoint_twice fields artifacts hheaders]

end Sections

/-! ## Updates of documents with both sections -/

section Updates

variable {document base : Document} {connection definitions : Entries Json}

/-- A document in which both sections and the functions of a transform group stand, so that writing
them keeps their places. -/
structure HasPlaces (base : Document) (connection definitions : Entries Json)
    (artifacts : TransformArtifacts) : Prop
    extends base.HasSections connection definitions where
  transform : Entries.get? base "transform" =
    some (transformValue artifacts.default artifacts.errorHandlers)

theorem get?_withSections_transform (base : Document) (fields others : Entries Json) :
    Entries.get? (withSections base fields others) "transform" = Entries.get? base "transform" :=
  get?_withSections _ _ _ (by decide) (by decide)

theorem HasPlaces.withSections {artifacts : TransformArtifacts}
    (h : base.HasPlaces connection definitions artifacts) (fields others : Entries Json) :
    (withSections base fields others).HasPlaces fields others artifacts where
  toHasSections := hasSections_withSections _ _ _
  transform := (get?_withSections_transform _ _ _).trans h.transform

theorem HasPlaces.apply_transform {artifacts : TransformArtifacts}
    (h : document.HasPlaces connection definitions artifacts) :
    ((Update.transform artifacts).edit.apply document).2 =
      Document.withSections document (withBulk connection artifacts.convention)
        (merged definitions artifacts.schema) := by
  have hrun : Edit.apply (Update.transform artifacts).edit document = _ :=
    transform_runOn h.sectionFields?_connection h.sectionFields?_definitions artifacts
  rw [hrun, h.withSections_eq, Entries.put_of_get? h.transform]

theorem HasSections.apply_connection (h : document.HasSections connection definitions)
    (artifacts : ConnectionArtifacts) :
    ((Update.connection artifacts).edit.apply document).2 =
      withSections document (withEndpoint connection artifacts)
        (merged definitions artifacts.schema) := by
  have hrun : Edit.apply (Update.connection artifacts).edit document = _ :=
    connection_runOn h.sectionFields?_connection h.sectionFields?_definitions artifacts
  rw [hrun, h.withSections_eq]

/-- The first transform group makes the places that later ones write to. -/
theorem exists_apply_transform
    (hconnection : sectionFields? document connectionName = some connection)
    (hdefinitions : sectionFields? document contextDefinitionName = some definitions)
    (artifacts : TransformArtifacts) :
    ∃ base, base.HasPlaces connection definitions artifacts ∧
      ((Update.transform artifacts).edit.apply document).2 =
        withSections base (withBulk connection artifacts.convention)
          (merged definitions artifacts.schema) := by
  have hsections := hasSections_withSections document connection definitions
  have hrun : Edit.apply (Update.transform artifacts).edit document = _ :=
    transform_runOn hconnection hdefinitions artifacts
  refine ⟨_, ⟨⟨?_, ?_⟩, ?_⟩, congrArg Prod.snd hrun⟩
  · rw [Entries.get?_put_of_ne _ _ (by decide), hsections.connection]
  · rw [Entries.get?_put_of_ne _ _ (by decide), hsections.definitions]
  · exact Entries.get?_put_self _ _ _

/-- The first connection group writes out the sections. -/
theorem exists_apply_connection
    (hconnection : sectionFields? document connectionName = some connection)
    (hdefinitions : sectionFields? document contextDefinitionName = some definitions)
    (artifacts : ConnectionArtifacts) :
    ∃ base, base.HasSections connection definitions ∧
      ((Update.connection artifacts).edit.apply document).2 =
        withSections base (withEndpoint connection artifacts)
          (merged definitions artifacts.schema) := by
  have hrun : Edit.apply (Update.connection artifacts).edit document = _ :=
    connection_runOn hconnection hdefinitions artifacts
  exact ⟨_, hasSections_withSections document connection definitions, congrArg Prod.snd hrun⟩

theorem update_singleton (document : Document) (u : Update) :
    (document.update [u]).2 = (u.edit.apply document).2 := rfl

theorem update_pair (document : Document) (u v : Update) :
    (document.update [u, v]).2 = (v.edit.apply (u.edit.apply document).2).2 := rfl

theorem update_append (document : Document) (first second : List Update) :
    (document.update (first ++ second)).2 = ((document.update first).2.update second).2 := by
  induction first generalizing document with
  | nil => rfl
  | cons u rest ih =>
    rw [List.cons_append, update_cons, update_cons]
    exact ih _

theorem merged_merged (definitions : Entries Json) (schema : Schema) :
    merged (merged definitions schema) schema = merged definitions schema :=
  Entries.putAll_putAll _ _

/-- Two schemas that are merged in turn are written as one list. -/
theorem merged_pair (definitions : Entries Json) (first second : Schema) :
    merged (merged definitions first) second = Entries.putAll definitions
      (Entries.mapValues Variable.toJson first ++ Entries.mapValues Variable.toJson second) :=
  (Entries.putAll_append _ _ _).symm

theorem merged_pair_twice (definitions : Entries Json) (first second : Schema) :
    merged (merged (merged (merged definitions first) second) first) second =
      merged (merged definitions first) second := by
  rw [merged_pair, merged_pair, Entries.putAll_putAll]

theorem update_transform_twice (h : document.IsEditable) (t : TransformArtifacts) :
    (document.update [.transform t, .transform t]).2 = (document.update [.transform t]).2 := by
  obtain ⟨connection, definitions, hconnection, hdefinitions⟩ := (isEditable_iff document).1 h
  obtain ⟨base, hbase, hfirst⟩ := exists_apply_transform hconnection hdefinitions t
  have hbulk : Entries.get? (withBulk connection t.convention) "bulk" = _ :=
    (get?_withBulk _ _ _).trans (if_pos rfl)
  rw [update_pair, update_singleton, hfirst, (hbase.withSections _ _).apply_transform,
    withBulk_of_get? _ hbulk, merged_merged, withSections_withSections]

theorem text_update_connection_twice_iff (h : document.IsEditable) (c : ConnectionArtifacts) :
    text (document.update [.connection c, .connection c]).2 =
        text (document.update [.connection c]).2 ↔
      (c.headers.isSome = true → (document.field? connectionName "headers").isSome = true) := by
  obtain ⟨connection, definitions, hconnection, hdefinitions⟩ := (isEditable_iff document).1 h
  obtain ⟨base, hbase, hfirst⟩ := exists_apply_connection hconnection hdefinitions c
  rw [update_pair, update_singleton, hfirst, (hasSections_withSections _ _ _).apply_connection,
    merged_merged, withSections_withSections, hbase.text_withEndpoint_iff, Entries.mem_names_iff,
    field?_eq hconnection, ← Option.isSome_iff_exists]

/-- A pair of groups, written into a document in which all of it has its place. -/
theorem HasPlaces.update_pair {t : TransformArtifacts}
    (h : base.HasPlaces connection definitions t) (c : ConnectionArtifacts)
    (fields others : Entries Json) :
    ((Document.withSections base fields others).update [.transform t, .connection c]).2 =
      Document.withSections base (withEndpoint (withBulk fields t.convention) c)
        (merged (merged others t.schema) c.schema) := by
  rw [Document.update_pair, (h.withSections _ _).apply_transform, withSections_withSections,
    (hasSections_withSections _ _ _).apply_connection, withSections_withSections]

/-- Whether the section for requests says of the convention what a transform group does. -/
def TellsBulk (fields : Entries Json) (t : TransformArtifacts) : Prop :=
  Entries.get? fields "bulk" = t.convention.map fun convention => .bool convention.isBulk

theorem tellsBulk_withBulk (fields : Entries Json) (t : TransformArtifacts) :
    TellsBulk (withBulk fields t.convention) t :=
  (get?_withBulk _ _ _).trans (if_pos rfl)

theorem TellsBulk.withEndpoint {fields : Entries Json} {t : TransformArtifacts}
    (h : TellsBulk fields t) (c : ConnectionArtifacts) :
    TellsBulk (Document.withEndpoint fields c) t := by
  have hkey : "bulk" ≠ (endpointField c.endpoint).1 := by
    cases c.endpoint <;> simp [endpointField]
  unfold TellsBulk
  rw [get?_withEndpoint, if_neg (by decide), if_neg hkey, if_neg (by decide), h]

/-- The first build makes places for all that it writes. In a document with these places a further
one writes the endpoint and the headers, and finds the rest as it is. -/
theorem exists_update_build (h : document.IsEditable) (t : TransformArtifacts)
    (c : ConnectionArtifacts) :
    ∃ base connection definitions fields others,
      base.HasPlaces connection definitions t ∧ TellsBulk fields t ∧
      ("headers" ∈ Entries.names fields ↔
        (document.field? connectionName "headers").isSome = true) ∧
      (document.update [.transform t, .connection c]).2 =
        Document.withSections base (withEndpoint fields c) others ∧
      ∀ fields', TellsBulk fields' t →
        ((Document.withSections base fields' others).update [.transform t, .connection c]).2 =
          Document.withSections base (withEndpoint fields' c) others := by
  obtain ⟨connection, definitions, hconnection, hdefinitions⟩ := (isEditable_iff document).1 h
  obtain ⟨base, hbase, hfirst⟩ := exists_apply_transform hconnection hdefinitions t
  refine ⟨base, connection, definitions, withBulk connection t.convention,
    merged (merged definitions t.schema) c.schema, hbase, tellsBulk_withBulk _ _, ?_, ?_,
    fun fields' hfields' => ?_⟩
  · rw [Entries.mem_names_iff, get?_withBulk, if_neg (by decide), field?_eq hconnection,
      ← Option.isSome_iff_exists]
  · rw [Document.update_pair, hfirst, (hasSections_withSections _ _ _).apply_connection,
      withSections_withSections]
  · rw [hbase.update_pair, withBulk_of_get? _ hfields', merged_pair_twice]

end Updates

/-- Groups that are written into a document once more leave its text as it is, but for a connection
group that has appended its headers: then the endpoint is moved behind them. A third run changes
nothing in any case. -/
theorem rebuilding_keeps_text_iff {document : Document} (h : document.IsEditable)
    (t : TransformArtifacts) (c : ConnectionArtifacts) :
    let build := [Update.transform t, Update.connection c]
    let keepsHeaders :=
      c.headers.isSome = true → (document.field? connectionName "headers").isSome = true
    (∀ updates, ∀ outcome ∈ (document.update updates).1, outcome = .ok ()) ∧
      text (document.update [.transform t, .transform t]).2 =
        text (document.update [.transform t]).2 ∧
      (text (document.update [.connection c, .connection c]).2 =
        text (document.update [.connection c]).2 ↔ keepsHeaders) ∧
      (text (document.update (build ++ build)).2 = text (document.update build).2 ↔
        keepsHeaders) ∧
      (document.update (build ++ build ++ build)).2 = (document.update (build ++ build)).2 := by
  intro build keepsHeaders
  obtain ⟨base, connection, definitions, fields, others, hbase, hbulk, hheaders, hfirst, hagain⟩ :=
    exists_update_build h t c
  have hsecond : (document.update (build ++ build)).2 =
      Document.withSections base (withEndpoint (withEndpoint fields c) c) others := by
    rw [update_append, hfirst, hagain _ (hbulk.withEndpoint c)]
  refine ⟨fun updates => (updated_update h updates).1, congrArg text (update_transform_twice h t),
    text_update_connection_twice_iff h c, ?_, ?_⟩
  · rw [hsecond, hfirst, hbase.text_withEndpoint_iff, hheaders]
  · rw [update_append, hsecond, hagain _ ((hbulk.withEndpoint c).withEndpoint c),
      withEndpoint_twice (withEndpoint fields c) c (headers_mem_withEndpoint fields c)]

/-- A connection group with headers. -/
def withAuthorization : ConnectionArtifacts :=
  ⟨.url "http://host", some (.object [("Authorization", .string "Bearer")]), []⟩

/-- The document with headers in it keeps its text. -/
theorem rebuilding_keeps_text_authorized :
    let document : Document := [("connection", .object [("headers", .object []),
      ("method", .string "GET")])]
    let build := [Update.transform secretTransform, Update.connection withAuthorization]
    document.IsEditable ∧
      text (document.update (build ++ build)).2 = text (document.update build).2 := by
  intro document build
  have h : document.IsEditable := (isEditable_iff _).2 ⟨_, _, rfl, rfl⟩
  obtain ⟨-, -, -, hbuild, -⟩ := rebuilding_keeps_text_iff h secretTransform withAuthorization
  exact ⟨h, hbuild.2 fun _ => rfl⟩

/-- In an empty document the address is written in front of the headers, and behind them when the
same groups are written once more. -/
theorem rebuilding_moves_endpoint :
    let build := [Update.transform secretTransform, Update.connection withAuthorization]
    IsEditable [] ∧
      text (update [] [.connection withAuthorization, .connection withAuthorization]).2 ≠
        text (update [] [.connection withAuthorization]).2 ∧
      text (update [] (build ++ build)).2 ≠ text (update [] build).2 := by
  refine ⟨(isEditable_iff _).2 ⟨_, _, rfl, rfl⟩, ?_, ?_⟩
  · decide +kernel
  · decide +kernel

end Document

end Collector
