import Collector.Proofs.Commuting
import Collector.Proofs.Keys

/-!
# The order of keys

The author of a template has put its keys in an order. Updates keep it: a new value takes the place
of the old one, a key that is removed leaves the others where they are, and a new key comes last.

* `Ordered` says it of the three levels that updates write to, by `Extends`. In the section for
  requests the endpoint and the convention are written anew, so it is said of the other keys there.
* `Ordered.trans` puts two runs together, `ordered_update` is one update.
* `update_keeps_order` is the result.
-/

namespace Collector

/-! ## Documents -/

namespace Document

/-- The keys of a section, in order. -/
def sectionNames (document : Document) (name : String) : List String :=
  Entries.names ((sectionFields? document name).getD [])

theorem sectionNames_eq {document : Document} {name : String} {fields : Entries Json}
    (h : sectionFields? document name = some fields) :
    document.sectionNames name = Entries.names fields := by
  unfold sectionNames
  rw [h]
  rfl

/-- The keys of the section for requests but some. -/
def requestNames (document : Document) (except : List String) : List String :=
  (document.sectionNames connectionName).filter fun key => !except.contains key

end Document

/-- Whether an update takes the convention out of a document. -/
def Update.RemovesBulk (u : Update) : Prop :=
  ∃ artifacts, u = .transform artifacts ∧ artifacts.convention = none

namespace Document

/-- How updates leave the keys of a document: the old ones in their order, and new ones behind
them. No key stands twice that did not do so before. -/
structure Ordered (before : Document) (updates : List Update) (after : Document) : Prop where
  root : Extends [connectionName, contextDefinitionName, "transform"]
    (Entries.names before) (Entries.names after)
  definitions : Extends (updates.flatMap fun u => Entries.names u.schema)
    (before.sectionNames contextDefinitionName) (after.sectionNames contextDefinitionName)
  requests : Extends ["headers"]
    (before.requestNames ["url", "toUrl", "bulk"]) (after.requestNames ["url", "toUrl", "bulk"])
  bulk : (∀ u ∈ updates, ¬ u.RemovesBulk) → Extends ["headers", "bulk"]
    (before.requestNames ["url", "toUrl"]) (after.requestNames ["url", "toUrl"])
  rootOnce : (Entries.names before).Nodup → (Entries.names after).Nodup
  sectionOnce : ∀ name ∈ [connectionName, contextDefinitionName],
    (before.sectionNames name).Nodup → (after.sectionNames name).Nodup

namespace Ordered

theorem refl (document : Document) : Ordered document [] document where
  root := (Extends.refl _).mono (List.nil_subset _)
  definitions := Extends.refl _
  requests := (Extends.refl _).mono (List.nil_subset _)
  bulk _ := (Extends.refl _).mono (List.nil_subset _)
  rootOnce h := h
  sectionOnce _ _ h := h

theorem trans {first second third : Document} {updates others : List Update}
    (h : Ordered first updates second) (h' : Ordered second others third) :
    Ordered first (updates ++ others) third where
  root := (h.root.trans h'.root).mono (List.append_subset.2 ⟨List.Subset.refl _, List.Subset.refl _⟩)
  definitions := by
    rw [List.flatMap_append]
    exact h.definitions.trans h'.definitions
  requests := (h.requests.trans h'.requests).mono
    (List.append_subset.2 ⟨List.Subset.refl _, List.Subset.refl _⟩)
  bulk hkeeps := by
    have hfirst := h.bulk fun u hu => hkeeps u (List.mem_append_left _ hu)
    have hsecond := h'.bulk fun u hu => hkeeps u (List.mem_append_right _ hu)
    exact (hfirst.trans hsecond).mono
      (List.append_subset.2 ⟨List.Subset.refl _, List.Subset.refl _⟩)
  rootOnce hfirst := h'.rootOnce (h.rootOnce hfirst)
  sectionOnce name hname hfirst := h'.sectionOnce name hname (h.sectionOnce name hname hfirst)

/-- No key is new in the section for requests but those that updates write. -/
theorem mem_requests {before after : Document} {updates : List Update}
    (h : Ordered before updates after) {key : String}
    (hkey : key ∈ after.sectionNames connectionName) :
    key ∈ before.sectionNames connectionName ∨ key ∈ ["url", "toUrl", "headers", "bulk"] := by
  by_cases hmoved : key ∈ ["url", "toUrl", "bulk"]
  · right
    simp only [List.mem_cons, List.not_mem_nil, or_false] at hmoved ⊢
    tauto
  · have hother : key ∈ after.requestNames ["url", "toUrl", "bulk"] :=
      List.mem_filter.2 ⟨hkey, by simpa using hmoved⟩
    rcases h.requests.mem hother with hold | hnew
    · exact .inl (List.mem_filter.1 hold).1
    · right
      simp only [List.mem_singleton] at hnew
      simp [hnew]

end Ordered

/-! ## Single updates -/

section Updates

variable {document base : Document} {connection definitions fields : Entries Json}

theorem extends_withSections (document : Document) (connection definitions : Entries Json) :
    Extends [connectionName, contextDefinitionName] (Entries.names document)
      (Entries.names (withSections document connection definitions)) :=
  (Entries.extends_put _ _ _).trans (Entries.extends_put _ _ _)

theorem nodup_withSections (h : (Entries.names document).Nodup)
    (connection definitions : Entries Json) :
    (Entries.names (withSections document connection definitions)).Nodup :=
  Entries.nodup_put (Entries.nodup_put h _ _) _ _

/-- The sections are written at last, behind a change of the root and with changed fields. -/
theorem ordered_of_sections (u : Update)
    (hconnection : sectionFields? document connectionName = some connection)
    (hdefinitions : sectionFields? document contextDefinitionName = some definitions)
    (hroot : Extends [connectionName, contextDefinitionName, "transform"]
      (Entries.names document) (Entries.names base))
    (hrequests : Extends ["headers"]
      ((Entries.names connection).filter fun key => !(["url", "toUrl", "bulk"].contains key))
      ((Entries.names fields).filter fun key => !(["url", "toUrl", "bulk"].contains key)))
    (hbulk : ¬ u.RemovesBulk → Extends ["headers", "bulk"]
      ((Entries.names connection).filter fun key => !(["url", "toUrl"].contains key))
      ((Entries.names fields).filter fun key => !(["url", "toUrl"].contains key)))
    (hrootOnce : (Entries.names document).Nodup → (Entries.names base).Nodup)
    (hfieldsOnce : (Entries.names connection).Nodup → (Entries.names fields).Nodup) :
    Ordered document [u] (withSections base fields (merged definitions u.schema)) := by
  have hfields : (withSections base fields (merged definitions u.schema)).sectionNames
      connectionName = Entries.names fields :=
    sectionNames_eq (sectionFields?_withSections_connection _ _ _)
  have hmerged : (withSections base fields (merged definitions u.schema)).sectionNames
      contextDefinitionName = Entries.names (merged definitions u.schema) :=
    sectionNames_eq (sectionFields?_withSections_definitions _ _ _)
  refine ⟨?_, ?_, ?_, fun hkeeps => ?_, fun h => ?_, fun name hname h => ?_⟩
  · exact (hroot.trans (extends_withSections base _ _)).mono (by decide)
  · rw [hmerged, sectionNames_eq hdefinitions, List.flatMap_singleton,
      ← Entries.names_mapValues Variable.toJson u.schema]
    exact Entries.extends_putAll _ _
  · unfold requestNames
    rw [hfields, sectionNames_eq hconnection]
    exact hrequests
  · unfold requestNames
    rw [hfields, sectionNames_eq hconnection]
    exact hbulk (hkeeps u List.mem_cons_self)
  · exact nodup_withSections (hrootOnce h) _ _
  · simp only [List.mem_cons, List.not_mem_nil, or_false] at hname
    rcases hname with rfl | rfl
    · rw [sectionNames_eq hconnection] at h
      rw [hfields]
      exact hfieldsOnce h
    · rw [sectionNames_eq hdefinitions] at h
      rw [hmerged]
      exact Entries.nodup_putAll h _

theorem extends_withBulk (fields : Entries Json) (convention : Option Convention) :
    Extends []
      ((Entries.names fields).filter fun key => !(["url", "toUrl", "bulk"].contains key))
      ((Entries.names (withBulk fields convention)).filter fun key =>
        !(["url", "toUrl", "bulk"].contains key)) := by
  unfold withBulk
  cases convention with
  | none =>
    show Extends [] _ (List.filter _ (Entries.names (Entries.remove fields "bulk")))
    rw [Entries.filter_names_remove fields (by decide)]
    exact Extends.refl _
  | some convention => exact ((Entries.extends_put fields "bulk" _).filter _).mono (by decide)

/-- Headers come last where there were none, and an endpoint does not count. -/
theorem extends_withEndpoint (fields : Entries Json) (artifacts : ConnectionArtifacts)
    {p : String → Bool} (hurl : p "url" = false) (htoUrl : p "toUrl" = false) :
    Extends ["headers"] ((Entries.names fields).filter p)
      ((Entries.names (withEndpoint fields artifacts)).filter p) := by
  have hendpoint : p (endpointField artifacts.endpoint).1 = false := by
    cases artifacts.endpoint <;> assumption
  have hothers : (Entries.names (Entries.remove (Entries.remove fields "url") "toUrl")).filter p =
      (Entries.names fields).filter p := by
    rw [Entries.filter_names_remove _ htoUrl, Entries.filter_names_remove _ hurl]
  have hpatched := ((Entries.extends_put (Entries.remove (Entries.remove fields "url") "toUrl")
    (endpointField artifacts.endpoint).1 (endpointField artifacts.endpoint).2).filter p)
  rw [hothers, List.filter_cons_of_neg (by simp [hendpoint]), List.filter_nil] at hpatched
  unfold withEndpoint
  cases artifacts.headers with
  | none => exact hpatched.mono (List.nil_subset _)
  | some headers =>
    have hheaders := (Entries.extends_put (Entries.put
      (Entries.remove (Entries.remove fields "url") "toUrl")
      (endpointField artifacts.endpoint).1 (endpointField artifacts.endpoint).2)
      "headers" headers).filter p
    exact (hpatched.trans hheaders).mono List.filter_sublist.subset

theorem nodup_withBulk (h : (Entries.names fields).Nodup) (convention : Option Convention) :
    (Entries.names (withBulk fields convention)).Nodup := by
  unfold withBulk
  split
  · exact Entries.nodup_put h _ _
  · exact Entries.nodup_remove h _

theorem nodup_withEndpoint (h : (Entries.names fields).Nodup) (artifacts : ConnectionArtifacts) :
    (Entries.names (withEndpoint fields artifacts)).Nodup := by
  have hpatched := Entries.nodup_put (Entries.nodup_remove (Entries.nodup_remove h "url") "toUrl")
    (endpointField artifacts.endpoint).1 (endpointField artifacts.endpoint).2
  unfold withEndpoint
  cases artifacts.headers with
  | none => exact hpatched
  | some headers => exact Entries.nodup_put hpatched _ _

theorem ordered_update (h : document.IsEditable) (u : Update) :
    Ordered document [u] (u.edit.apply document).2 := by
  obtain ⟨connection, definitions, hconnection, hdefinitions⟩ := (isEditable_iff document).1 h
  have hroot : Extends [connectionName, contextDefinitionName] (Entries.names document)
      (Entries.names (withSections document connection definitions)) :=
    extends_withSections document connection definitions
  cases u with
  | transform artifacts =>
    have hrun : Edit.apply (Update.transform artifacts).edit document = _ :=
      transform_runOn hconnection hdefinitions artifacts
    rw [hrun]
    refine ordered_of_sections (.transform artifacts) hconnection hdefinitions
      (hroot.trans (Entries.extends_put _ "transform" _))
      ((extends_withBulk connection _).mono (List.nil_subset _)) (fun hkeeps => ?_)
      (fun hdocument => Entries.nodup_put (nodup_withSections hdocument _ _) _ _)
      (fun hfields => nodup_withBulk hfields _)
    cases hconvention : artifacts.convention with
    | none => exact absurd ⟨artifacts, rfl, hconvention⟩ hkeeps
    | some convention =>
      exact ((Entries.extends_put connection "bulk" _).filter _).mono (by decide)
  | connection artifacts =>
    have hrun : Edit.apply (Update.connection artifacts).edit document = _ :=
      connection_runOn hconnection hdefinitions artifacts
    rw [hrun]
    exact ordered_of_sections (.connection artifacts) hconnection hdefinitions
      (hroot.mono (by decide))
      (extends_withEndpoint connection artifacts (by decide) (by decide))
      (fun _ => (extends_withEndpoint connection artifacts (by decide) (by decide)).mono
        (by decide))
      (fun hdocument => nodup_withSections hdocument _ _)
      (fun hfields => nodup_withEndpoint hfields artifacts)

end Updates

/-! ## Runs of updates -/

theorem ordered_updates {document : Document} (h : document.IsEditable) (updates : List Update) :
    Ordered document updates (document.update updates).2 := by
  induction updates generalizing document with
  | nil => exact Ordered.refl document
  | cons u rest ih =>
    obtain ⟨-, hupdated⟩ := update_of_isEditable h u
    rw [update_cons]
    exact (ordered_update h u).trans (ih (hupdated.isEditable h))

/-- Updates keep the order of the keys that stand in a document, and append those that are new. In
the section for requests this holds of all keys but the endpoint and the convention, and of the
convention too if no update takes it out. No key comes to stand twice, at any depth. -/
theorem update_keeps_order {document : Document} (h : document.IsEditable)
    (updates : List Update) :
    (∀ outcome ∈ (document.update updates).1, outcome = .ok ()) ∧
      Ordered document updates (document.update updates).2 ∧
      (∀ key ∈ (document.update updates).2.sectionNames connectionName,
        key ∈ document.sectionNames connectionName ∨ key ∈ ["url", "toUrl", "headers", "bulk"]) ∧
      ((Json.object document).WellFormed → (∀ u ∈ updates, u.WellFormed) →
        (Json.object (document.update updates).2).WellFormed) := by
  have hordered := ordered_updates h updates
  exact ⟨(updated_update h updates).1, hordered, fun _ hkey => hordered.mem_requests hkey,
    fun hdocument => update_wellFormed hdocument h⟩

/-- A template in which the convention stands between other fields. -/
def inOrder : Document :=
  [("connection", .object [("url", .string "http://old"), ("bulk", .bool true),
      ("method", .string "GET")]),
    ("vendor", .string "acme")]

/-- The convention stays in front of the method, and what is new comes last. -/
theorem update_keeps_order_between :
    let updates : List Update :=
      [.transform ⟨none, [], some .singleItem, [("limit", .ofDescription "Limit")]⟩,
        .connection ⟨.toUrl "return ctx.host", some (.object []), []⟩]
    inOrder.IsEditable ∧ Ordered inOrder updates (inOrder.update updates).2 ∧
      (∀ u ∈ updates, ¬ u.RemovesBulk) ∧
      (inOrder.update updates).2.sectionNames connectionName =
        ["bulk", "method", "toUrl", "headers"] ∧
      Entries.names (inOrder.update updates).2 =
        ["connection", "vendor", "contextDefinition", "transform"] := by
  intro updates
  have h : inOrder.IsEditable := (isEditable_iff _).2 ⟨_, _, rfl, rfl⟩
  obtain ⟨-, hordered, -, -⟩ := update_keeps_order h updates
  refine ⟨h, hordered, fun u hu => ?_, by decide, by decide⟩
  rintro ⟨artifacts, rfl, hnone⟩
  simp only [updates, List.mem_cons, List.not_mem_nil, or_false] at hu
  rcases hu with heq | heq
  · cases heq
    cases hnone
  · cases heq

end Document

end Collector
