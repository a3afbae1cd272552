import Collector.Proofs.Context.Validation

/-!
# Schemas that are written and read again

A schema that was read off an object is written with the fields that the object has, up to their
order and up to the fields that stand for nothing, `withoutBlanks`. Reading what is written gives
the schema back.

* `get?_fields_of_ofFields` compares the fields of one definition.
* `ofEntries_lookup` and `ofEntries_mapValues` carry that over to all variables.
* `schema_round_trip` puts both directions together.
-/

namespace Collector

/-- What stands under a name among those entries that pass a test. -/
theorem Entries.get?_filter {α : Type} {entries : Entries α} (hnodup : (names entries).Nodup)
    (p : String × α → Bool) (key : String) :
    get? (entries.filter p) key = (get? entries key).filter fun value => p (key, value) := by
  have hfiltered : (names (entries.filter p)).Nodup :=
    hnodup.sublist (List.filter_sublist.map Prod.fst)
  refine Option.ext fun value => ?_
  rw [Option.filter_eq_some_iff]
  constructor
  · intro h
    obtain ⟨hmem, hp⟩ := List.mem_filter.1 (mem_of_get? h)
    exact ⟨get?_of_mem hnodup hmem, hp⟩
  · rintro ⟨h, hp⟩
    exact get?_of_mem hfiltered (List.mem_filter.2 ⟨mem_of_get? h, hp⟩)

namespace Variable

/-! ## One definition -/

/-- The fields that count as missing where they hold `null`. -/
def blankable : List String := ["required", "default", "encrypted"]

/-- Whether a field stands for nothing. -/
def isBlankField (field : String × Json) : Bool := blankable.contains field.1 && field.2.isNull

/-- The fields without those that stand for nothing. -/
def withoutBlanks (fields : Entries Json) : Entries Json :=
  fields.filter fun field => !isBlankField field

theorem names_withoutBlanks_nodup {fields : Entries Json} (h : (Entries.names fields).Nodup) :
    (Entries.names (withoutBlanks fields)).Nodup :=
  h.sublist (List.filter_sublist.map Prod.fst)

theorem get?_withoutBlanks {fields : Entries Json} (h : (Entries.names fields).Nodup)
    (key : String) : Entries.get? (withoutBlanks fields) key =
      (Entries.get? fields key).filter fun value => !isBlankField (key, value) :=
  Entries.get?_filter h _ key

/-- A flag that has been read is written as it stood, if it did not stand for nothing. -/
theorem flag?_of_ofFields {fields : Entries Json} (hnodup : (Entries.names fields).Nodup)
    (hfault : fields.findSome? fieldFault? = none) {key : String} (hkey : isFlag key = true)
    (hblank : key ∈ blankable) :
    (flag? fields key).map Json.bool = Entries.get? (withoutBlanks fields) key := by
  rw [get?_withoutBlanks hnodup]
  unfold flag?
  cases hvalue : Entries.get? fields key with
  | none => rfl
  | some value =>
    have hsound := List.findSome?_eq_none_iff.1 hfault _ (Entries.mem_of_get? hvalue)
    rw [fieldFault?, if_pos hkey] at hsound
    cases value with
    | null => simp [isBlankField, Json.isNull, hblank, Option.filter]
    | bool flag => simp [isBlankField, Json.isNull, Option.filter]
    | _ => cases hsound

/-- A definition has the fields that it was read off, without those that stand for nothing. -/
theorem get?_fields_of_ofFields {fields : Entries Json} (hnodup : (Entries.names fields).Nodup)
    {v : Variable} (h : ofFields fields = .ok v) (key : String) :
    Entries.get? v.fields key = Entries.get? (withoutBlanks fields) key := by
  have hsound := isSound_of_fields hnodup h
  obtain ⟨hfault, hdescription, hrequired, hdefault, hencrypted, hextra⟩ := ofFields_eq_ok h
  by_cases hkey : key ∈ fieldNames
  · rw [hsound.get?_fields hkey]
    simp only [fieldNames, List.mem_cons, List.not_mem_nil, or_false] at hkey
    rcases hkey with rfl | rfl | rfl | rfl
    · show some (Json.string v.description) = _
      obtain ⟨value, hvalue, htext⟩ := Option.bind_eq_some_iff.1 hdescription
      rw [get?_withoutBlanks hnodup, hvalue]
      cases value with
      | string text =>
        cases htext
        rfl
      | _ => cases htext
    · show v.required.map Json.bool = _
      rw [hrequired]
      exact flag?_of_ofFields hnodup hfault rfl (by decide)
    · show v.default = _
      rw [hdefault, get?_withoutBlanks hnodup]
      rfl
    · show v.encrypted.map Json.bool = _
      rw [hencrypted]
      exact flag?_of_ofFields hnodup hfault rfl (by decide)
  · have hown : Entries.get? v.ownFields key = none := by
      rw [Entries.get?_eq_none_iff]
      exact fun hmem => hkey (v.names_ownFields_subset hmem)
    have hblank : key ∉ blankable := fun hmem => hkey (List.mem_cons_of_mem _ hmem)
    rw [fields_eq, Entries.get?_append, hown, Option.none_or, hextra,
      get?_withoutBlanks hnodup]
    show Entries.get? (fields.filter _) key = _
    rw [Entries.get?_filter hnodup]
    simp [isBlankField, hkey, hblank]

/-- A definition is written as the object that it was read off, without the fields that stand for
nothing. -/
theorem same_toJson_of_ofFields {fields : Entries Json} (hfields : (Json.object fields).WellFormed)
    {v : Variable} (h : ofFields fields = .ok v) :
    v.toJson.same (.object (withoutBlanks fields)) = true := by
  have hsound := isSound_of_fields hfields.nodup h
  rw [hsound.toJson_eq]
  refine (Json.same_object_iff hsound.nodup_fields
    (names_withoutBlanks_nodup hfields.nodup)).2 fun key => ?_
  have hget := get?_fields_of_ofFields hfields.nodup h key
  refine .of_eq hget fun value hvalue => ?_
  rw [hget, get?_withoutBlanks hfields.nodup] at hvalue
  exact hfields.field (Option.filter_eq_some_iff.1 hvalue).1

end Variable

namespace Schema

/-! ## All definitions -/

/-- A value without the fields that stand for nothing. -/
def withoutBlankFields : Json → Json
  | .object fields => .object (Variable.withoutBlanks fields)
  | value => value

/-- What is read under a name is read off the fields that stand under it. -/
theorem ofEntries_lookup {entries : Entries Json} {schema : Schema}
    (h : ofEntries entries = .ok schema) (name : String) :
    Option.Rel (fun v value => Variable.ofFields (fieldsOf value) = .ok v)
      (Entries.get? schema name) (Entries.get? entries name) := by
  induction entries generalizing schema with
  | nil =>
    cases h
    exact .none
  | cons first rest ih =>
    obtain ⟨v, hv, h⟩ := Outcome.bind_eq_ok.1 h
    obtain ⟨others, hothers, h⟩ := Outcome.bind_eq_ok.1 h
    cases h
    show Option.Rel _ (Entries.get? ((first.1, v) :: others) name)
      (Entries.get? ((first.1, first.2) :: rest) name)
    rw [Entries.get?_cons, Entries.get?_cons]
    by_cases hname : first.1 = name
    · rw [if_pos hname, if_pos hname]
      exact .some (variableOf_eq_ok hv)
    · rw [if_neg hname, if_neg hname]
      exact ih hothers

/-- Definitions that keep to the rules are read as they were written. -/
theorem ofEntries_mapValues {schema : Schema} (hsound : schema.IsSound)
    (hrules : ∀ entry ∈ schema, entry.2.description ≠ "" ∧
      (entry.2.required = some true → entry.2.default = none)) :
    ofEntries (Entries.mapValues Variable.toJson schema) = .ok schema := by
  induction schema with
  | nil => rfl
  | cons entry rest ih =>
    obtain ⟨name, v⟩ := entry
    obtain ⟨hv, hrest⟩ := List.forall_mem_cons.1 hsound
    obtain ⟨⟨hdescription, hdefault⟩, hothers⟩ := List.forall_mem_cons.1 hrules
    dsimp only at hv hdescription hdefault
    have hdescribed : Described v.fields := by
      refine ⟨v.description, ?_, hdescription⟩
      rw [hv.get?_fields (by decide)]
      rfl
    have hdetermined : ¬Overdetermined v.fields := by
      rintro ⟨hrequired, value, hvalue, -⟩
      rw [hv.get?_fields (by decide)] at hrequired hvalue
      have htrue : v.required = some true := by
        obtain ⟨flag, hflag, heq⟩ := Option.map_eq_some_iff.1 hrequired
        cases heq
        exact hflag
      have hsome : v.default = some value := hvalue
      rw [hdefault htrue] at hsome
      cases hsome
    have hread : variableOf name v.fields = .ok v := by
      unfold variableOf
      rw [(isDescribed_iff _).2 hdescribed, hv.ofFields_fields]
      simp [(isOverdetermined_iff _).not.2 hdetermined]
    show ofEntries ((name, v.toJson) :: Entries.mapValues Variable.toJson rest) = _
    rw [hv.toJson_eq]
    refine Outcome.bind_eq_ok.2 ⟨v, hread, Outcome.bind_eq_ok.2 ⟨rest, ih hrest hothers, rfl⟩⟩

/-- A schema is written as the object that it was read off, without the fields that stand for
nothing. -/
theorem same_toJson_of_ofEntries {entries : Entries Json}
    (hentries : (Json.object entries).WellFormed) (hobjects : ∀ entry ∈ entries, IsObject entry.2)
    {schema : Schema} (h : ofEntries entries = .ok schema) :
    schema.toJson.same (.object (Entries.mapValues withoutBlankFields entries)) = true := by
  have hnames := (ofEntries_eq_ok h).1
  have hwritten : (Entries.names (Entries.mapValues Variable.toJson schema)).Nodup := by
    rw [Entries.names_mapValues, hnames]
    exact hentries.nodup
  have hcleaned : (Entries.names (Entries.mapValues withoutBlankFields entries)).Nodup := by
    rw [Entries.names_mapValues]
    exact hentries.nodup
  refine (Json.same_object_iff hwritten hcleaned).2 fun name => ?_
  rw [Entries.get?_mapValues, Entries.get?_mapValues]
  have hlookup := ofEntries_lookup h name
  cases hvalue : Entries.get? entries name with
  | none =>
    rw [hvalue] at hlookup
    generalize Entries.get? schema name = found at hlookup
    cases hlookup
    exact .none
  | some value =>
    rw [hvalue] at hlookup
    generalize Entries.get? schema name = found at hlookup
    cases hlookup with
    | some hread =>
      have hfields := hentries.field hvalue
      obtain ⟨fields, rfl⟩ := hobjects _ (Entries.mem_of_get? hvalue)
      exact .some (Variable.same_toJson_of_ofFields hfields hread)

/-! ## The round trip -/

/-- A schema that was read off an object is read again from what is written of it, and what is
written equals the object without the fields that stand for nothing. The names stay in order, and so
do the fields without a meaning of every variable. -/
theorem schema_round_trip {entries : Entries Json} (hentries : (Json.object entries).WellFormed)
    {schema : Schema} (h : ofJson (some (.object entries)) = .ok schema) :
    ofJson (some schema.toJson) = .ok schema ∧
    schema.toJson.same (.object (Entries.mapValues withoutBlankFields entries)) = true ∧
    ∃ written, schema.toJson = .object written ∧ Entries.names written = Entries.names entries ∧
      ∀ name value, Entries.get? written name = some value →
        ∃ fields others, value = .object fields ∧ Entries.get? entries name = some (.object others) ∧
          Variable.extras fields = Variable.extras others := by
  have hobjects : ∀ entry ∈ entries, IsObject entry.2 := by
    intro entry hentry
    obtain ⟨fields, hfields, -⟩ := (exists_ofJson_object_iff entries).1 ⟨schema, h⟩ entry hentry
    exact ⟨fields, hfields⟩
  rw [ofJson_of_objects hobjects] at h
  obtain ⟨hnames, hrules⟩ := ofEntries_eq_ok h
  obtain ⟨-, hsound, -⟩ := ofEntries_wellFormed ((Json.wellFormed_object_iff entries).1 hentries).2 h
  refine ⟨?_, same_toJson_of_ofEntries hentries hobjects h, _, rfl, ?_, fun name value hvalue => ?_⟩
  · have hwritten : ∀ entry ∈ Entries.mapValues Variable.toJson schema, IsObject entry.2 := by
      intro entry hentry
      obtain ⟨found, -, rfl⟩ := List.mem_map.1 hentry
      exact ⟨_, rfl⟩
    rw [toJson, ofJson_of_objects hwritten]
    exact ofEntries_mapValues hsound hrules
  · rw [Entries.names_mapValues, hnames]
  · rw [Entries.get?_mapValues, Option.map_eq_some_iff] at hvalue
    obtain ⟨v, hv, rfl⟩ := hvalue
    have hlookup := ofEntries_lookup h name
    rw [hv] at hlookup
    cases hother : Entries.get? entries name with
    | none =>
      rw [hother] at hlookup
      cases hlookup
    | some value =>
      rw [hother] at hlookup
      cases hlookup with
      | some hread =>
        obtain ⟨others, rfl⟩ := hobjects _ (Entries.mem_of_get? hother)
        have hvsound := hsound _ (Entries.mem_of_get? hv)
        obtain ⟨-, -, -, -, -, hextra⟩ := Variable.ofFields_eq_ok hread
        exact ⟨v.fields, others, hvsound.toJson_eq, rfl, hvsound.extras_fields.trans hextra⟩

/-- Variables with blank flags, with a default and with fields that have no meaning. -/
def labelled : Entries Json :=
  [("url", .object [("required", .null), ("label", .string "URL"), ("default", .null),
      ("description", .string "The address"), ("order", .integer 1)]),
    ("key", .object [("description", .string "The key"), ("encrypted", .bool true),
      ("default", .array [.null]), ("required", .bool false)])]

theorem schema_round_trip_labelled :
    ∃ schema, ofJson (some (.object labelled)) = .ok schema ∧
      ofJson (some schema.toJson) = .ok schema ∧
      schema.toJson.same (.object
        [("url", .object [("label", .string "URL"), ("description", .string "The address"),
            ("order", .integer 1)]),
          ("key", .object [("description", .string "The key"), ("encrypted", .bool true),
            ("default", .array [.null]), ("required", .bool false)])]) = true := by
  have hwell : (Json.object labelled).WellFormed := by
    simp [labelled, Json.WellFormed, Json.WellFormedFields, Json.WellFormedItems]
  have haccepted : (ofJson (some (.object labelled))).toBool = true := by decide +kernel
  cases hread : ofJson (some (.object labelled)) with
  | error e =>
    rw [hread] at haccepted
    cases haccepted
  | ok schema =>
    obtain ⟨hagain, hsame, -⟩ := schema_round_trip hwell hread
    exact ⟨schema, rfl, hagain, hsame⟩

end Schema

end Collector
