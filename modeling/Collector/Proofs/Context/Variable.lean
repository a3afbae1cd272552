import Collector.Context.Variable
import Collector.Proofs.Json.Same
import Collector.Proofs.Outcomes

/-!
# Definitions of context variables

* `Variable.get?_toJson` tells the fields of a definition as it is written.
* `Variable.IsSound` is what a definition that has been read is like, and `ofJson_toJson` says that
  such a definition reads back as it was written.
* `agrees_iff` and `same_toJson` relate agreement of definitions to equality of what is written.
-/

namespace Collector.Variable

/-! ## Fields as they are written -/

theorem get?_optionalField (name : String) (value : Option Json) (key : String) :
    Entries.get? (optionalField name value) key = if name = key then value else none := by
  unfold optionalField
  cases value with
  | none => simp
  | some value => exact Entries.get?_cons name value [] key

/-- The fields with a meaning. -/
def ownFields (v : Variable) : Entries Json :=
  [("description", Json.string v.description)] ++
    optionalField "required" (v.required.map Json.bool) ++
    optionalField "default" v.default ++
    optionalField "encrypted" (v.encrypted.map Json.bool)

theorem fields_eq (v : Variable) : v.fields = v.ownFields ++ v.extra := rfl

/-- The value of a field with a meaning. -/
def ownField? (v : Variable) (key : String) : Option Json :=
  if key = "description" then some (.string v.description)
  else if key = "required" then v.required.map Json.bool
  else if key = "default" then v.default
  else if key = "encrypted" then v.encrypted.map Json.bool
  else none

theorem get?_ownFields (v : Variable) (key : String) :
    Entries.get? v.ownFields key = v.ownField? key := by
  unfold ownFields ownField?
  rw [Entries.get?_append, Entries.get?_append, Entries.get?_append, Entries.get?_cons,
    get?_optionalField, get?_optionalField, get?_optionalField]
  by_cases hdescription : key = "description"
  · simp [hdescription]
  · by_cases hrequired : key = "required"
    · simp [hrequired]
    · by_cases hdefault : key = "default"
      · simp [hdefault]
      · by_cases hencrypted : key = "encrypted"
        · simp [hencrypted]
        · simp [hdescription, hrequired, hdefault, hencrypted, Ne.symm hdescription,
            Ne.symm hrequired, Ne.symm hdefault, Ne.symm hencrypted]

theorem nodup_ownFields (v : Variable) : (Entries.names v.ownFields).Nodup := by
  unfold ownFields optionalField
  cases v.required <;> cases v.default <;> cases v.encrypted <;> simp

theorem names_ownFields_subset (v : Variable) : Entries.names v.ownFields ⊆ fieldNames := by
  unfold ownFields optionalField
  cases v.required <;> cases v.default <;> cases v.encrypted <;>
    simp [Entries.names, fieldNames]

/-! ## Sound definitions -/

/-- What a definition is like that has been read off fields with distinct names. -/
structure IsSound (v : Variable) : Prop where
  default_ne_null : v.default ≠ some .null
  extra_notMem : ∀ field ∈ v.extra, field.1 ∉ fieldNames
  extra_nodup : (Entries.names v.extra).Nodup

theorem ofFields_eq_ok {fields : Entries Json} {v : Variable} (h : ofFields fields = .ok v) :
    fields.findSome? fieldFault? = none ∧ description? fields = some v.description ∧
      v.required = flag? fields "required" ∧ v.default = present? fields "default" ∧
      v.encrypted = flag? fields "encrypted" ∧ v.extra = extras fields := by
  unfold ofFields at h
  cases hfault : fields.findSome? fieldFault? with
  | some fault =>
    rw [hfault] at h
    cases h
  | none =>
    rw [hfault] at h
    cases hdescription : description? fields with
    | none =>
      rw [hdescription] at h
      cases h
    | some description =>
      rw [hdescription] at h
      cases h
      exact ⟨rfl, rfl, rfl, rfl, rfl, rfl⟩

theorem isSound_of_fields {fields : Entries Json} {v : Variable}
    (hnodup : (Entries.names fields).Nodup) (h : ofFields fields = .ok v) : v.IsSound := by
  obtain ⟨-, -, -, hdefault, -, hextra⟩ := ofFields_eq_ok h
  refine ⟨fun hnull => ?_, fun field hfield => ?_, ?_⟩
  · rw [hdefault] at hnull
    obtain ⟨-, hpresent⟩ := Option.filter_eq_some_iff.1 hnull
    cases hpresent
  · rw [hextra] at hfield
    have hmeaning := List.of_mem_filter hfield
    simpa using hmeaning
  · rw [hextra]
    exact hnodup.sublist (List.filter_sublist.map Prod.fst)

theorem IsSound.nodup_fields {v : Variable} (h : v.IsSound) :
    (Entries.names v.fields).Nodup := by
  rw [fields_eq]
  show (v.ownFields ++ v.extra |>.map Prod.fst).Nodup
  rw [List.map_append]
  refine List.nodup_append.2 ⟨v.nodup_ownFields, h.extra_nodup, ?_⟩
  rintro name hown _ hextra rfl
  obtain ⟨field, hfield, rfl⟩ := List.mem_map.1 hextra
  exact h.extra_notMem field hfield (v.names_ownFields_subset hown)

theorem IsSound.toJson_eq {v : Variable} (h : v.IsSound) : v.toJson = .object v.fields := by
  unfold toJson
  rw [Entries.ofList_of_nodup h.nodup_fields]

theorem IsSound.get?_fields {v : Variable} (h : v.IsSound) {key : String}
    (hkey : key ∈ fieldNames) : Entries.get? v.fields key = v.ownField? key := by
  have hextra : Entries.get? v.extra key = none := by
    rw [Entries.get?_eq_none_iff]
    intro hmem
    obtain ⟨field, hfield, rfl⟩ := List.mem_map.1 hmem
    exact h.extra_notMem field hfield hkey
  rw [fields_eq, Entries.get?_append, hextra, Option.or_none, get?_ownFields]

theorem fieldFault?_eq_none {field : String × Json} (h : field.1 ∉ fieldNames) :
    fieldFault? field = none := by
  have hflag : isFlag field.1 = false := by
    simp only [fieldNames, List.mem_cons, List.not_mem_nil, or_false, not_or] at h
    simp [isFlag, h.2.1, h.2.2.2]
  unfold fieldFault?
  rw [hflag]
  rfl

theorem findSome?_ownFields (v : Variable) : v.ownFields.findSome? fieldFault? = none := by
  unfold ownFields optionalField
  cases v.required <;> cases v.default <;> cases v.encrypted <;> rfl

theorem IsSound.findSome?_fields {v : Variable} (h : v.IsSound) :
    v.fields.findSome? fieldFault? = none := by
  rw [fields_eq, List.findSome?_append, findSome?_ownFields, Option.none_or]
  exact List.findSome?_eq_none_iff.2 fun field hfield =>
    fieldFault?_eq_none (h.extra_notMem field hfield)

theorem extras_ownFields (v : Variable) : extras v.ownFields = [] := by
  unfold extras
  refine List.filter_eq_nil_iff.2 fun field hfield => ?_
  have hmem := v.names_ownFields_subset (List.mem_map_of_mem hfield)
  simpa using hmem

theorem IsSound.extras_fields {v : Variable} (h : v.IsSound) : extras v.fields = v.extra := by
  show List.filter _ v.fields = _
  rw [fields_eq, List.filter_append]
  have hextra : v.extra.filter (fun field => !fieldNames.contains field.1) = v.extra :=
    List.filter_eq_self.2 fun field hfield => by simpa using h.extra_notMem field hfield
  rw [hextra]
  exact congrArg (· ++ v.extra) v.extras_ownFields

/-- A definition reads back as it was written. -/
theorem IsSound.ofFields_fields {v : Variable} (h : v.IsSound) : ofFields v.fields = .ok v := by
  have hdescription : description? v.fields = some v.description := by
    unfold description?
    rw [h.get?_fields (by decide)]
    rfl
  have hrequired : flag? v.fields "required" = v.required := by
    unfold flag?
    rw [h.get?_fields (by decide)]
    simp only [ownField?]
    cases v.required <;> rfl
  have hencrypted : flag? v.fields "encrypted" = v.encrypted := by
    unfold flag?
    rw [h.get?_fields (by decide)]
    simp only [ownField?]
    cases v.encrypted <;> rfl
  have hdefault : present? v.fields "default" = v.default := by
    unfold present?
    rw [h.get?_fields (by decide)]
    show v.default.filter _ = _
    cases hvalue : v.default with
    | none => rfl
    | some value =>
      refine Option.filter_eq_some_iff.2 ⟨rfl, ?_⟩
      cases value with
      | null => exact absurd hvalue h.default_ne_null
      | _ => rfl
  unfold ofFields
  rw [h.findSome?_fields, hdescription, hrequired, hencrypted, hdefault, h.extras_fields]

theorem IsSound.ofJson_toJson {v : Variable} (h : v.IsSound) : ofJson v.toJson = .ok v := by
  rw [h.toJson_eq]
  show (ofFields v.fields).mapError _ = _
  rw [h.ofFields_fields]
  rfl

/-! ## Agreement -/

theorem sameDefault_iff (a b : Option Json) :
    sameDefault a b = true ↔ Json.SameOption a b := by
  cases a <;> cases b <;> simp [sameDefault]

theorem agrees_iff (v w : Variable) :
    v.agrees w = true ↔ v.description = w.description ∧ v.required = w.required ∧
      Json.SameOption v.default w.default := by
  rw [agrees, Bool.and_eq_true, Bool.and_eq_true, beq_iff_eq, beq_iff_eq, sameDefault_iff,
    and_assoc]

/-- Whether the values in a definition are well-formed. -/
structure WellFormed (v : Variable) : Prop where
  default : ∀ value, v.default = some value → value.WellFormed
  extra : (Json.object v.extra).WellFormed

theorem WellFormed.fields {v : Variable} (h : v.WellFormed) :
    ∀ field ∈ v.fields, field.2.WellFormed := by
  intro field hfield
  rw [fields_eq] at hfield
  rcases List.mem_append.1 hfield with hown | hextra
  · have hvalue := Entries.get?_of_mem v.nodup_ownFields hown
    rw [get?_ownFields] at hvalue
    unfold ownField? at hvalue
    split at hvalue
    · rw [← Option.some.inj hvalue]
      trivial
    · split at hvalue
      · obtain ⟨_, -, hbool⟩ := Option.map_eq_some_iff.1 hvalue
        rw [← hbool]
        trivial
      · split at hvalue
        · exact h.default _ hvalue
        · split at hvalue
          · obtain ⟨_, -, hbool⟩ := Option.map_eq_some_iff.1 hvalue
            rw [← hbool]
            trivial
          · cases hvalue
  · exact ((Json.wellFormed_object_iff _).1 h.extra).2 field hextra

theorem WellFormed.toJson {v : Variable} (h : v.WellFormed) : v.toJson.WellFormed :=
  Json.wellFormed_ofList h.fields

theorem WellFormed.agrees_self {v : Variable} (h : v.WellFormed) : v.agrees v = true :=
  (agrees_iff v v).2 ⟨rfl, rfl, .of_eq rfl h.default⟩

theorem WellFormed.get?_toJson {v : Variable} (h : v.WellFormed) (key : String) :
    Entries.get? (Entries.ofList v.fields) key =
      (Entries.get? v.extra key).or (v.ownField? key) := by
  rw [fields_eq, Entries.get?_ofList_append, Entries.ofList_of_nodup h.extra.nodup,
    Entries.ofList_of_nodup v.nodup_ownFields, get?_ownFields]

/-- Definitions that agree in all fields are written as equal values. -/
theorem same_toJson {v w : Variable} (hv : v.WellFormed) (hw : w.WellFormed)
    (hagrees : v.agrees w = true) (hencrypted : v.encrypted = w.encrypted)
    (hextra : (Json.object v.extra).same (.object w.extra) = true) :
    v.toJson.same w.toJson = true := by
  obtain ⟨hdescription, hrequired, hdefault⟩ := (agrees_iff v w).1 hagrees
  have hbool (flag : Option Bool) : ∀ value, flag.map Json.bool = some value →
      value.WellFormed := by
    intro value hvalue
    obtain ⟨_, -, rfl⟩ := Option.map_eq_some_iff.1 hvalue
    trivial
  have hown (key : String) :
      Json.SameOption (v.ownField? key) (w.ownField? key) := by
    unfold ownField?
    rw [← hdescription, ← hrequired, ← hencrypted]
    split
    · exact .some (Json.same_refl trivial)
    · split
      · exact .of_eq rfl (hbool _)
      · split
        · exact hdefault
        · split
          · exact .of_eq rfl (hbool _)
          · exact .none
  refine (Json.same_object_iff (Entries.nodup_ofList _) (Entries.nodup_ofList _)).2 fun key => ?_
  rw [hv.get?_toJson, hw.get?_toJson]
  have hkey := (Json.same_object_iff hv.extra.nodup hw.extra.nodup).1 hextra key
  generalize Entries.get? v.extra key = a, Entries.get? w.extra key = b at hkey
  cases hkey with
  | none => exact hown key
  | some hsame => exact .some hsame

end Collector.Variable
