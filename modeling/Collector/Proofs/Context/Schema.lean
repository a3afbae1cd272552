import Collector.Group.Context
import Collector.Proofs.Context.Variable
import Collector.Proofs.Export.WellFormed

/-!
# Schemas of context variables

A schema that is read off exports names every variable once, and its definitions are sound and
well-formed: `Exports.schema_wellFormed`. Two schemas that have passed the check for conflicts
agree in every variable that both of them define: `agrees_of_checkConflicts`.
-/

namespace Collector

namespace Schema

/-! ## Reading -/

/-- Whether a schema names each variable once, and its definitions are well-formed. -/
structure WellFormed (schema : Schema) : Prop where
  nodup : (Entries.names schema).Nodup
  wellFormed : ∀ entry ∈ schema, entry.2.WellFormed

/-- Whether the definitions of a schema are sound. -/
def IsSound (schema : Schema) : Prop := ∀ entry ∈ schema, entry.2.IsSound

theorem WellFormed.nil : WellFormed [] where
  nodup := List.nodup_nil
  wellFormed := by simp

theorem IsSound.nil : IsSound [] := List.forall_mem_nil _

theorem WellFormed.definition {schema : Schema} (h : schema.WellFormed) {name : String}
    {v : Variable} (hv : Entries.get? schema name = some v) : v.WellFormed :=
  h.wellFormed _ (Entries.mem_of_get? hv)

theorem variableOf_eq_ok {name : String} {fields : Entries Json} {v : Variable}
    (h : variableOf name fields = .ok v) : Variable.ofFields fields = .ok v := by
  unfold variableOf at h
  split at h
  · cases h
  · split at h
    · cases h
    · split at h
      · rename_i found hfound
        cases h
        exact hfound
      · cases h
      · cases h

theorem variable_wellFormed {fields : Entries Json} (hfields : (Json.object fields).WellFormed)
    {v : Variable} (h : Variable.ofFields fields = .ok v) : v.WellFormed := by
  obtain ⟨-, -, -, hdefault, -, hextra⟩ := Variable.ofFields_eq_ok h
  refine ⟨fun value hvalue => ?_, (Json.wellFormed_object_iff _).2 ⟨?_, fun field hfield => ?_⟩⟩
  · rw [hdefault] at hvalue
    exact hfields.field (Option.filter_eq_some_iff.1 hvalue).1
  · exact (Variable.isSound_of_fields hfields.nodup h).extra_nodup
  · rw [hextra] at hfield
    exact ((Json.wellFormed_object_iff _).1 hfields).2 field (List.mem_of_mem_filter hfield)

/-- The fields of a value; all that is not an object has none. -/
theorem fields_wellFormed {value : Json} (h : value.WellFormed) :
    (Json.object (value.fields?.getD [])).WellFormed := by
  cases value with
  | object fields => exact h
  | _ => exact Json.wellFormed_empty

theorem ofEntries_wellFormed {entries : Entries Json} {schema : Schema}
    (hentries : ∀ entry ∈ entries, entry.2.WellFormed) (h : ofEntries entries = .ok schema) :
    Entries.names schema = Entries.names entries ∧
      schema.IsSound ∧ ∀ entry ∈ schema, entry.2.WellFormed := by
  induction entries generalizing schema with
  | nil =>
    cases h
    exact ⟨rfl, .nil, by simp⟩
  | cons entry rest ih =>
    obtain ⟨name, value⟩ := entry
    obtain ⟨hvalue, hrest⟩ := List.forall_mem_cons.1 hentries
    obtain ⟨v, hv, h⟩ := Outcome.bind_eq_ok.1 h
    obtain ⟨others, hothers, h⟩ := Outcome.bind_eq_ok.1 h
    cases h
    obtain ⟨hnames, hsound, hwell⟩ := ih hrest hothers
    have hfields := fields_wellFormed hvalue
    have hread := variableOf_eq_ok hv
    exact ⟨congrArg (name :: ·) hnames,
      List.forall_mem_cons.2 ⟨Variable.isSound_of_fields hfields.nodup hread, hsound⟩,
      List.forall_mem_cons.2 ⟨variable_wellFormed hfields hread, hwell⟩⟩

theorem ofJson_wellFormed {value : Json} (hvalue : value.WellFormed) {schema : Schema}
    (h : ofJson (some value) = .ok schema) : schema.WellFormed ∧ schema.IsSound := by
  cases value with
  | null =>
    cases h
    exact ⟨.nil, .nil⟩
  | object entries =>
    obtain ⟨hnodup, hentries⟩ := (Json.wellFormed_object_iff entries).1 hvalue
    unfold ofJson at h
    simp only at h
    split at h
    · cases h
    · obtain ⟨hnames, hsound, hwell⟩ := ofEntries_wellFormed hentries h
      refine ⟨⟨?_, hwell⟩, hsound⟩
      rw [hnames]
      exact hnodup
  | _ => cases h

end Schema

/-- The schema that a module of exports defines is well-formed and sound. -/
theorem Exports.schema_wellFormed {exports : Exports} (hexports : exports.WellFormed)
    {schema : Schema} (h : exports.schema = .ok schema) :
    schema.WellFormed ∧ schema.IsSound := by
  unfold Exports.schema at h
  cases hdefined : exports.defined? "contextDefinition" with
  | none =>
    rw [hdefined] at h
    cases h
    exact ⟨.nil, .nil⟩
  | some value =>
    rw [hdefined] at h
    simp only at h
    split at h
    · cases h
    · have hget := (Option.filter_eq_some_iff.1 hdefined).1
      have hvalue := hexports.2 _ (Entries.mem_of_get? hget)
      exact Schema.ofJson_wellFormed (shownJson_wellFormed value hvalue) h

/-! ## Comparing -/

namespace Schema

theorem leastName?_eq_none {names : List String} (h : leastName? names = none) : names = [] := by
  cases names with
  | nil => rfl
  | cons name rest =>
    unfold leastName? at h
    split at h <;> cases h

/-- What two schemas define that have passed the check for conflicts. -/
theorem agrees_of_checkConflicts {a b : Schema} (h : checkConflicts a b = .ok ())
    {name : String} {v w : Variable} (hv : Entries.get? a name = some v)
    (hw : Entries.get? b name = some w) : v.agrees w = true := by
  unfold checkConflicts at h
  have hnone : conflicts a b = [] := by
    cases hleast : leastName? (conflicts a b) with
    | none => exact leastName?_eq_none hleast
    | some least =>
      rw [hleast] at h
      cases h
  have hfilter := List.filter_eq_nil_iff.1 (List.map_eq_nil_iff.1 hnone) _ (Entries.mem_of_get? hv)
  simpa [hw] using hfilter

end Schema

end Collector
