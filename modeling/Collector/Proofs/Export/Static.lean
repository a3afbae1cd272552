import Collector.Group.Context
import Collector.Proofs.Export.WellFormed

/-!
# Static exports

A schema of context variables holds constants only. The value that is checked shows functions and
run-time expressions as strings, so the check itself does not see them. They are kept out all the
same: where all variables are objects each field is looked at beforehand, and elsewhere the check
refuses the value for its shape. The second case rests on what the reader of exports does: an
object is never read as a constant, so no variable shows as an object without being one.

* `Export.json?_eq_none_iff` says which values are not constant.
* `Export.plain_of_source` is the fact about the reader.
* `Exports.schema_reads_constants` is the result.
-/

namespace Collector

open Script

namespace Export

/-! ## What is constant -/

/-- Whether a value occurs in another one, at any depth. -/
inductive Inside (part : Export) : Export → Prop
  | self : Inside part part
  | entry {entries : List (String × Export)} {name : String} {value : Export} :
      (name, value) ∈ entries → Inside part value → Inside part (.object entries)

/-- Whether a value is a function, or known by its text only. -/
def IsRuntime : Export → Prop
  | .function _ | .dynamic _ => True
  | .literal _ | .object _ => False

/-- Whether functions or run-time expressions occur in a value. -/
def HasRuntime (value : Export) : Prop := ∃ part, Inside part value ∧ part.IsRuntime

theorem hasRuntime_literal (json : Json) : ¬ (literal json).HasRuntime := by
  rintro ⟨part, hinside, hruntime⟩
  cases hinside
  exact hruntime

theorem hasRuntime_object (entries : List (String × Export)) :
    (object entries).HasRuntime ↔ ∃ entry ∈ entries, entry.2.HasRuntime := by
  constructor
  · rintro ⟨part, hinside, hruntime⟩
    cases hinside with
    | self => exact hruntime.elim
    | entry hmem hinside => exact ⟨_, hmem, part, hinside, hruntime⟩
  · rintro ⟨⟨name, value⟩, hmem, part, hinside, hruntime⟩
    exact ⟨part, .entry hmem hinside, hruntime⟩

theorem jsonFields?_cons (entry : String × Export) (rest : List (String × Export)) :
    jsonFields? (entry :: rest) =
      entry.2.json? >>= fun value =>
        jsonFields? rest >>= fun fields => some ((entry.1, value) :: fields) := rfl

theorem jsonFields?_cons_eq_none {entry : String × Export} {rest : List (String × Export)} :
    jsonFields? (entry :: rest) = none ↔ entry.2.json? = none ∨ jsonFields? rest = none := by
  rw [jsonFields?_cons]
  cases entry.2.json? <;> cases jsonFields? rest <;> simp

mutual

/-- A value has no JSON form exactly if functions or run-time expressions occur in it. -/
theorem json?_eq_none_iff (value : Export) : value.json? = none ↔ value.HasRuntime := by
  cases value with
  | function source => exact iff_of_true rfl ⟨_, .self, trivial⟩
  | dynamic source => exact iff_of_true rfl ⟨_, .self, trivial⟩
  | literal json => exact iff_of_false nofun (hasRuntime_literal json)
  | object entries =>
    rw [hasRuntime_object, ← jsonFields?_eq_none_iff entries]
    exact Option.map_eq_none_iff

theorem jsonFields?_eq_none_iff (entries : List (String × Export)) :
    jsonFields? entries = none ↔ ∃ entry ∈ entries, entry.2.HasRuntime := by
  cases entries with
  | nil => exact iff_of_false nofun (by simp)
  | cons entry rest =>
    obtain ⟨name, value⟩ := entry
    rw [jsonFields?_cons_eq_none, json?_eq_none_iff value, jsonFields?_eq_none_iff rest,
      List.exists_mem_cons_iff]

end

mutual

/-- A value that has a JSON form shows it. -/
theorem shownJson_of_json? (value : Export) {json : Json} (h : value.json? = some json) :
    value.shownJson = json := by
  cases value with
  | function source => cases h
  | dynamic source => cases h
  | literal found => exact Option.some.inj h
  | object entries =>
    obtain ⟨fields, hfields, rfl⟩ := Option.map_eq_some_iff.1 h
    exact congrArg Json.object (shownFields_of_jsonFields? entries hfields)

theorem shownFields_of_jsonFields? (entries : List (String × Export)) {fields : List (String × Json)}
    (h : jsonFields? entries = some fields) : shownFields entries = fields := by
  cases entries with
  | nil => exact Option.some.inj h
  | cons entry rest =>
    obtain ⟨name, value⟩ := entry
    obtain ⟨json, hjson, h⟩ := Option.bind_eq_some_iff.1 h
    obtain ⟨others, hothers, h⟩ := Option.bind_eq_some_iff.1 h
    obtain rfl := Option.some.inj h
    rw [shownFields, shownJson_of_json? value hjson, shownFields_of_jsonFields? rest hothers]

end

/-! ## Objects are not constants -/

mutual

/-- Whether no constant in a value is an object. -/
def Plain : Export → Prop
  | .literal json => json.isObject = false
  | .object entries => PlainEntries entries
  | .function _ | .dynamic _ => True

/-- Whether no constant in any of the entries is an object. -/
def PlainEntries : List (String × Export) → Prop
  | [] => True
  | (_, value) :: rest => value.Plain ∧ PlainEntries rest

end

theorem plainEntries_iff (entries : List (String × Export)) :
    PlainEntries entries ↔ ∀ entry ∈ entries, entry.2.Plain := by
  induction entries with
  | nil => simp [PlainEntries]
  | cons entry rest ih => rw [PlainEntries, ih, List.forall_mem_cons]

theorem plain_ofList {list : List (String × Export)} (h : ∀ entry ∈ list, entry.2.Plain) :
    ∀ entry ∈ Entries.ofList list, entry.2.Plain := by
  intro entry hentry
  rcases Entries.mem_putAll hentry with hnil | ⟨addition, hmem, hvalue⟩
  · cases hnil
  · rw [hvalue]
    exact h addition hmem

/-- A value that shows as an object is one. -/
theorem Plain.isObject_shownJson {value : Export} (h : value.Plain) :
    value.shownJson.isObject = value.object?.isSome := by
  cases value with
  | literal json => exact h
  | _ => rfl

end Export

theorem numberJson?_isObject {value : Double} {json : Json} (h : numberJson? value = some json) :
    json.isObject = false := by
  unfold numberJson? at h
  split at h
  · obtain rfl := Option.some.inj h
    rfl
  · obtain rfl := Option.some.inj h
    rfl
  · cases h

/-- Only an object, with or without parentheses, is read as a constant object. -/
theorem literal?_isObject {e : Expr} {json : Json} (h : e.literal? = some json)
    (hobject : ∀ properties pending, e ≠ .object properties pending)
    (hparen : ∀ inside inner, e ≠ .paren inside inner) : json.isObject = false := by
  unfold Expr.literal? at h
  split at h
  · obtain rfl := Option.some.inj h
    rfl
  · obtain rfl := Option.some.inj h
    rfl
  · exact numberJson?_isObject h
  · obtain rfl := Option.some.inj h
    rfl
  · obtain rfl := Option.some.inj h
    rfl
  · split at h
    · obtain rfl := Option.some.inj h
      rfl
    · cases h
  · exact numberJson?_isObject h
  · obtain ⟨values, -, rfl⟩ := Option.map_eq_some_iff.1 h
    rfl
  · exact (hobject _ _ rfl).elim
  · exact (hparen _ _ rfl).elim
  · cases h

mutual

theorem export_plain (text : String) (e : Expr) : (e.export text).Plain := by
  cases e with
  | function f => trivial
  | arrow valueText f => trivial
  | object properties comma =>
    exact (Export.plainEntries_iff _).2 (Export.plain_ofList (exportFields_plain properties))
  | paren inside inner => exact export_plain inside inner
  | _ =>
    unfold Expr.export
    split
    · rename_i h
      exact literal?_isObject h nofun nofun
    · trivial
termination_by structural e

theorem exportFields_plain (properties : List Property) :
    ∀ entry ∈ exportFields properties, entry.2.Plain := by
  have keyed {key : Key} {value : Export} (hvalue : value.Plain) :
      ∀ entry ∈ (key.text?.map fun name => (name, value)).toList, entry.2.Plain := by
    cases key.text? with
    | none => simp
    | some name => simpa using hvalue
  cases properties with
  | nil => simp [exportFields]
  | cons property rest =>
    have hrest := exportFields_plain rest
    cases property with
    | field key e shorthand text =>
      exact List.forall_mem_append.2 ⟨keyed (export_plain text e), hrest⟩
    | method key f text => exact List.forall_mem_append.2 ⟨keyed trivial, hrest⟩
    | accessor kind key f text => exact List.forall_mem_append.2 ⟨keyed trivial, hrest⟩
    | spread e => exact hrest
    | pending name e => exact hrest
termination_by structural properties

end

/-- No object is read as a constant. -/
theorem Exports.plain_of_source {source : String} {exports : Exports}
    (h : Exports.ofSource source = .ok exports) : ∀ entry ∈ exports, entry.2.Plain := by
  unfold Exports.ofSource at h
  split at h
  · cases h
  · split at h
    · rename_i properties _
      cases h
      exact Export.plain_ofList (exportFields_plain properties)
    · cases h

namespace Exports

/-! ## Schemas -/

/-- Among variables that are objects, one with a field that is not constant is found. -/
theorem runtimeField?_isSome_iff (definitions : Entries Export) :
    (runtimeField? definitions).isSome ↔
      ∃ entry ∈ definitions, ∃ fields, entry.2 = .object fields ∧ entry.2.HasRuntime := by
  unfold runtimeField?
  rw [List.findSome?_isSome_iff]
  refine exists_congr fun entry => and_congr_right fun _ => ?_
  rw [Option.isSome_map, List.find?_isSome]
  cases hvalue : entry.2 with
  | object fields =>
    simp only [Export.hasRuntime_object, Option.isNone_iff_eq_none, Export.json?_eq_none_iff]
    constructor
    · exact fun h => ⟨fields, rfl, h⟩
    · rintro ⟨_, -, h⟩
      exact h
  | _ => simp [Export.object?]

theorem schema_eq_of_defined {exports : Exports} {value : Export}
    (h : exports.defined? "contextDefinition" = some value) :
    exports.schema =
      match runtimeField? ((value.object?.filter fun definitions =>
        definitions.all fun entry => entry.2.object?.isSome).getD []) with
      | some (name, field) => .error (.notStatic name field)
      | none => Schema.ofJson (some value.shownJson) := by
  unfold schema
  generalize exports.defined? "contextDefinition" = found at h ⊢
  subst h
  rfl

/-- Constants are checked as they are. -/
theorem schema_of_json? {exports : Exports} {value : Export} {json : Json}
    (hdefined : exports.defined? "contextDefinition" = some value)
    (hjson : value.json? = some json) : exports.schema = Schema.ofJson (some json) := by
  have hconstant : ¬ value.HasRuntime := by
    rw [← Export.json?_eq_none_iff, hjson]
    nofun
  have hnone : runtimeField? ((value.object?.filter fun definitions =>
      definitions.all fun entry => entry.2.object?.isSome).getD []) = none := by
    rw [← Option.not_isSome_iff_eq_none, runtimeField?_isSome_iff]
    rintro ⟨entry, hmem, -, -, hruntime⟩
    cases value with
    | object entries =>
      refine hconstant ((Export.hasRuntime_object entries).2 ⟨entry, ?_, hruntime⟩)
      rw [Export.object?, Option.filter_some] at hmem
      split at hmem
      · exact hmem
      · cases hmem
    | _ => cases hmem
  rw [schema_eq_of_defined hdefined, hnone, Export.shownJson_of_json? value hjson]

/-- A value in which a variable does not show as an object is refused for its shape. -/
theorem ofJson_shownFields_error {entries : List (String × Export)}
    (hplain : ∀ entry ∈ entries, entry.2.Plain) {entry : String × Export} (hmem : entry ∈ entries)
    (hentry : entry.2.object? = none) :
    ∃ error, Schema.ofJson (some (.object (Export.shownFields entries))) = .error error := by
  have hshown : (entry.1, entry.2.shownJson) ∈ Export.shownFields entries := by
    clear hplain
    induction entries with
    | nil => cases hmem
    | cons first rest ih =>
      rcases List.mem_cons.1 hmem with rfl | hmem
      · exact List.mem_cons_self
      · exact List.mem_cons_of_mem _ (ih hmem)
  have hshape : entry.2.shownJson.isObject = false := by
    rw [(hplain entry hmem).isObject_shownJson, hentry]
    rfl
  unfold Schema.ofJson
  cases hfind : (Export.shownFields entries).find? fun field => !field.2.isObject with
  | some found =>
    refine ⟨.variableNotObject found.1, ?_⟩
    simp only [hfind]
  | none => exact absurd (List.find?_eq_none.1 hfind _ hshown) (by simp [hshape])

/-- A value that is not constant throughout is refused. -/
theorem schema_error_of_hasRuntime {exports : Exports} {value : Export}
    (hdefined : exports.defined? "contextDefinition" = some value) (hplain : value.Plain)
    (hruntime : value.HasRuntime) : ∃ error, exports.schema = .error error := by
  rw [schema_eq_of_defined hdefined]
  cases value with
  | literal json => exact (Export.hasRuntime_literal json hruntime).elim
  | function source => exact ⟨.schemaNotObject, rfl⟩
  | dynamic source => exact ⟨.schemaNotObject, rfl⟩
  | object entries =>
    have hplain := (Export.plainEntries_iff entries).1 hplain
    rw [Export.object?, Option.filter_some]
    by_cases hall : entries.all fun entry => entry.2.object?.isSome
    · -- every variable is an object, so the field that is not constant is found
      rw [if_pos hall, Option.getD_some]
      obtain ⟨entry, hmem, hinside⟩ := (Export.hasRuntime_object entries).1 hruntime
      have hobject := List.all_eq_true.1 hall entry hmem
      have hfound : (runtimeField? entries).isSome := by
        refine (runtimeField?_isSome_iff entries).2 ⟨entry, hmem, ?_⟩
        cases hvalue : entry.2 with
        | object fields => exact ⟨fields, rfl, hvalue ▸ hinside⟩
        | _ => simp [hvalue, Export.object?] at hobject
      obtain ⟨found, hfound⟩ := Option.isSome_iff_exists.1 hfound
      rw [hfound]
      exact ⟨_, rfl⟩
    · rw [if_neg hall, Option.getD_none]
      obtain ⟨entry, hmem, hentry⟩ : ∃ entry ∈ entries, entry.2.object? = none := by
        simpa [List.all_eq_true] using hall
      exact ofJson_shownFields_error hplain hmem hentry

/-- The schema of a module is that of the JSON value which its definitions are, and an error if
they are not constant throughout. So whatever stands in an accepted schema has been read off
constants. -/
theorem schema_reads_constants {source : String} {exports : Exports} {value : Export}
    (hsource : Exports.ofSource source = .ok exports)
    (hdefined : exports.defined? "contextDefinition" = some value) :
    (∀ json, value.json? = some json → exports.schema = Schema.ofJson (some json)) ∧
      (value.json? = none ↔ value.HasRuntime) ∧
      (value.HasRuntime → ∃ error, exports.schema = .error error) ∧
      ∀ schema, exports.schema = .ok schema →
        ∃ json, value.json? = some json ∧ value.shownJson = json ∧ ¬ value.HasRuntime ∧
          Schema.ofJson (some json) = .ok schema := by
  have hplain : value.Plain :=
    plain_of_source hsource _ (Entries.mem_of_get? (Option.filter_eq_some_iff.1 hdefined).1)
  have hrefused := schema_error_of_hasRuntime hdefined hplain
  refine ⟨fun json => schema_of_json? hdefined, value.json?_eq_none_iff, hrefused, ?_⟩
  intro schema hschema
  have hconstant : ¬ value.HasRuntime := by
    intro hruntime
    obtain ⟨error, herror⟩ := hrefused hruntime
    cases hschema.symm.trans herror
  cases hjson : value.json? with
  | none => exact (hconstant (value.json?_eq_none_iff.1 hjson)).elim
  | some json =>
    exact ⟨json, rfl, value.shownJson_of_json? hjson, hconstant,
      (schema_of_json? hdefined hjson).symm.trans hschema⟩

/-- A module whose only variable has a default that is called for, beside constants. -/
def calledSource : String :=
  "module.exports = \x7b contextDefinition: \x7b token: \x7b description: 'Token', " ++
    "default: [1, make()] \x7d \x7d \x7d"

/-- The default is not constant, and the schema is refused. -/
theorem schema_reads_constants_called :
    ∃ exports value, Exports.ofSource calledSource = .ok exports ∧
      exports.defined? "contextDefinition" = some value ∧ value.HasRuntime ∧
      ∃ error, exports.schema = .error error := by
  have hread : ((Exports.ofSource calledSource).toOption.bind fun exports =>
      (exports.defined? "contextDefinition").bind fun value =>
        if value.json?.isNone then some (exports, value) else none).isSome = true := by
    decide +kernel
  obtain ⟨⟨exports, value⟩, hread⟩ := Option.isSome_iff_exists.1 hread
  obtain ⟨found, hfound, hread⟩ := Option.bind_eq_some_iff.1 hread
  obtain ⟨raw, hdefined, hread⟩ := Option.bind_eq_some_iff.1 hread
  obtain ⟨hnone, hsame⟩ := Option.ite_none_right_eq_some.1 hread
  obtain ⟨rfl, rfl⟩ := Prod.mk.inj (Option.some.inj hsame)
  have hsource := Outcome.eq_ok_of_toOption hfound
  obtain ⟨-, hruntime, hrefused, -⟩ := schema_reads_constants hsource hdefined
  have hvalue := hruntime.1 (Option.isNone_iff_eq_none.1 hnone)
  exact ⟨found, raw, hsource, hdefined, hvalue, hrefused hvalue⟩

end Exports

end Collector
