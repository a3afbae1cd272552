import Collector.Proofs.Context.Schema

/-!
# Which schemas are accepted

The rules for the fields of a variable are stated about the fields themselves: `Described`,
`Overdetermined` and `BadFlag`. `Faulty` is the order in which they are looked at.

* `variableOf_eq_error_iff` and `exists_variableOf_iff` say what is made of one variable.
* `ofEntries_eq_error_iff` says which of several variables is reported: the first faulty one.
* `validation_exact` puts that together with the rule that is looked at before all others, that
  every variable is an object.
-/

namespace Collector.Schema

/-! ## The rules for one variable -/

/-- Whether fields hold a description that is not empty. -/
def Described (fields : Entries Json) : Prop :=
  ∃ text, Entries.get? fields "description" = some (.string text) ∧ text ≠ ""

/-- Whether fields demand a value and give a default other than `null` as well. -/
def Overdetermined (fields : Entries Json) : Prop :=
  Entries.get? fields "required" = some (.bool true) ∧
    ∃ value, Entries.get? fields "default" = some value ∧ value ≠ .null

/-- Whether a field is a flag that holds neither a boolean nor `null`. -/
def BadFlag (field : String × Json) : Prop :=
  (field.1 = "required" ∨ field.1 = "encrypted") ∧ field.2 ≠ .null ∧ ∀ flag, field.2 ≠ .bool flag

/-- Whether fields break none of the rules. -/
structure Acceptable (fields : Entries Json) : Prop where
  described : Described fields
  determined : ¬Overdetermined fields
  flags : ∀ field ∈ fields, ¬BadFlag field

/-- The error that the fields of a variable lead to: a missing description comes before a default
that is not needed, and that before the first of the flags that are no booleans. -/
inductive Faulty (name : String) (fields : Entries Json) : Error → Prop
  | description (h : ¬Described fields) : Faulty name fields (.descriptionRequired name)
  | default (described : Described fields) (h : Overdetermined fields) :
      Faulty name fields (.defaultNotNeeded name)
  | flag {before after : Entries Json} {field : String × Json} (described : Described fields)
      (determined : ¬Overdetermined fields) (split : fields = before ++ field :: after)
      (first : ∀ other ∈ before, ¬BadFlag other) (h : BadFlag field) :
      Faulty name fields (.notABoolean name (Variable.kindWords field.2))

theorem isDescribed_iff (fields : Entries Json) : isDescribed fields = true ↔ Described fields := by
  unfold isDescribed Described Variable.description?
  cases Entries.get? fields "description" with
  | none => simp
  | some value => cases value <;> simp [Json.string?]

theorem isOverdetermined_iff (fields : Entries Json) :
    isOverdetermined fields = true ↔ Overdetermined fields := by
  have hflag : Variable.flag? fields "required" = some true ↔
      Entries.get? fields "required" = some (.bool true) := by
    unfold Variable.flag?
    cases Entries.get? fields "required" with
    | none => simp
    | some value => cases value <;> simp
  have hpresent : (Variable.present? fields "default").isSome = true ↔
      ∃ value, Entries.get? fields "default" = some value ∧ value ≠ .null := by
    unfold Variable.present?
    cases Entries.get? fields "default" with
    | none => simp
    | some value => cases value <;> simp [Json.isNull]
  unfold isOverdetermined Overdetermined
  rw [Bool.and_eq_true, beq_iff_eq, hflag, hpresent]

theorem fieldFault?_eq_some_iff (field : String × Json) (fault : Variable.Fault) :
    Variable.fieldFault? field = some fault ↔
      BadFlag field ∧ fault = .notABoolean (Variable.kindWords field.2) := by
  have hname : Variable.isFlag field.1 = true ↔ field.1 = "required" ∨ field.1 = "encrypted" := by
    simp [Variable.isFlag]
  unfold Variable.fieldFault? BadFlag
  by_cases hflag : Variable.isFlag field.1 = true
  · rw [if_pos hflag]
    obtain ⟨name, value⟩ := field
    cases value <;> simp [hname.1 hflag, eq_comm]
  · rw [if_neg hflag]
    simp [hname.not.1 hflag]

theorem fieldFault?_eq_none_iff (field : String × Json) :
    Variable.fieldFault? field = none ↔ ¬BadFlag field := by
  constructor
  · intro hnone hbad
    have hfault := (fieldFault?_eq_some_iff field _).2 ⟨hbad, rfl⟩
    rw [hnone] at hfault
    cases hfault
  · intro hgood
    refine Option.eq_none_iff_forall_not_mem.2 fun fault hfault => ?_
    exact hgood ((fieldFault?_eq_some_iff field fault).1 hfault).1

/-! ## One variable -/

theorem variableOf_of_acceptable {fields : Entries Json} (h : Acceptable fields) (name : String) :
    ∃ v, variableOf name fields = .ok v := by
  have hdescribed := (isDescribed_iff fields).2 h.described
  have hdetermined := (isOverdetermined_iff fields).not.2 h.determined
  obtain ⟨text, htext, -⟩ := h.described
  have hdescription : Variable.description? fields = some text := by
    rw [Variable.description?, htext]
    rfl
  have hflags : fields.findSome? Variable.fieldFault? = none :=
    List.findSome?_eq_none_iff.2 fun field hfield =>
      (fieldFault?_eq_none_iff field).2 (h.flags field hfield)
  unfold variableOf Variable.ofFields
  rw [hdescribed, hflags, hdescription]
  simp only [Bool.not_true, Bool.false_eq_true, if_false, if_neg hdetermined]
  exact ⟨_, rfl⟩

theorem variableOf_of_faulty {name : String} {fields : Entries Json} {e : Error}
    (h : Faulty name fields e) : variableOf name fields = .error e := by
  unfold variableOf
  cases h with
  | description h =>
    rw [← isDescribed_iff, Bool.not_eq_true] at h
    simp [h]
  | default described h =>
    rw [← isDescribed_iff] at described
    rw [← isOverdetermined_iff] at h
    simp [described, h]
  | flag described determined split first h =>
    rename_i before after field
    have hfault : fields.findSome? Variable.fieldFault? =
        some (.notABoolean (Variable.kindWords field.2)) := by
      refine List.findSome?_eq_some_iff.2 ⟨before, field, after, split, ?_, fun other hother => ?_⟩
      · exact (fieldFault?_eq_some_iff field _).2 ⟨h, rfl⟩
      · exact (fieldFault?_eq_none_iff other).2 (first other hother)
    rw [← isDescribed_iff] at described
    rw [← isOverdetermined_iff, Bool.not_eq_true] at determined
    simp [described, determined, Variable.ofFields, hfault]

/-- Fields are acceptable, or they are faulty in one way. -/
theorem acceptable_or_faulty (name : String) (fields : Entries Json) :
    Acceptable fields ∨ ∃ e, Faulty name fields e := by
  by_cases hdescribed : Described fields
  · by_cases hdetermined : Overdetermined fields
    · exact .inr ⟨_, .default hdescribed hdetermined⟩
    · cases hfault : fields.findSome? Variable.fieldFault? with
      | none =>
        refine .inl ⟨hdescribed, hdetermined, fun field hfield => ?_⟩
        exact (fieldFault?_eq_none_iff field).1 (List.findSome?_eq_none_iff.1 hfault field hfield)
      | some fault =>
        obtain ⟨before, field, after, hsplit, hfield, hbefore⟩ := List.findSome?_eq_some_iff.1 hfault
        refine .inr ⟨_, .flag hdescribed hdetermined hsplit (fun other hother => ?_)
          ((fieldFault?_eq_some_iff field fault).1 hfield).1⟩
        exact (fieldFault?_eq_none_iff other).1 (hbefore other hother)
  · exact .inr ⟨_, .description hdescribed⟩

theorem variableOf_eq_error_iff (name : String) (fields : Entries Json) (e : Error) :
    variableOf name fields = .error e ↔ Faulty name fields e := by
  refine ⟨fun herror => ?_, variableOf_of_faulty⟩
  rcases acceptable_or_faulty name fields with hfine | ⟨found, hfaulty⟩
  · obtain ⟨v, hv⟩ := variableOf_of_acceptable hfine name
    rw [hv] at herror
    cases herror
  · rw [variableOf_of_faulty hfaulty] at herror
    cases herror
    exact hfaulty

theorem exists_variableOf_iff (name : String) (fields : Entries Json) :
    (∃ v, variableOf name fields = .ok v) ↔ Acceptable fields := by
  refine ⟨fun ⟨v, hv⟩ => ?_, fun h => variableOf_of_acceptable h name⟩
  rcases acceptable_or_faulty name fields with hfine | ⟨e, hfaulty⟩
  · exact hfine
  · rw [variableOf_of_faulty hfaulty] at hv
    cases hv

/-- What a variable is like that has been accepted. -/
theorem variable_of_variableOf {name : String} {fields : Entries Json} {v : Variable}
    (h : variableOf name fields = .ok v) :
    v.description ≠ "" ∧ (v.required = some true → v.default = none) := by
  have hfine := (exists_variableOf_iff name fields).1 ⟨v, h⟩
  obtain ⟨-, hdescription, hrequired, hdefault, -, -⟩ :=
    Variable.ofFields_eq_ok (variableOf_eq_ok h)
  constructor
  · obtain ⟨text, htext, hne⟩ := hfine.described
    rw [Variable.description?, htext] at hdescription
    cases hdescription
    exact hne
  · intro htrue
    by_contra hsome
    have hover : isOverdetermined fields = true := by
      unfold isOverdetermined
      rw [← hrequired, ← hdefault, htrue]
      simpa [Option.isSome_iff_ne_none] using hsome
    exact hfine.determined ((isOverdetermined_iff fields).1 hover)

/-! ## All variables -/

/-- The fields of a value; all that is not an object has none. -/
abbrev fieldsOf (value : Json) : Entries Json := value.fields?.getD []

theorem ofEntries_eq_error_iff (entries : Entries Json) (e : Error) :
    ofEntries entries = .error e ↔ ∃ before entry after, entries = before ++ entry :: after ∧
      (∀ other ∈ before, Acceptable (fieldsOf other.2)) ∧
        Faulty entry.1 (fieldsOf entry.2) e := by
  induction entries with
  | nil => simp [ofEntries]
  | cons first rest ih =>
    obtain ⟨name, value⟩ := first
    cases hfirst : variableOf name (fieldsOf value) with
    | error found =>
      have hfaulty := (variableOf_eq_error_iff name (fieldsOf value) found).1 hfirst
      have hofEntries : ofEntries ((name, value) :: rest) = .error found := by
        show variableOf name (fieldsOf value) >>= _ = _
        rw [hfirst]
        rfl
      rw [hofEntries]
      constructor
      · intro heq
        cases heq
        exact ⟨[], (name, value), rest, rfl, by simp, hfaulty⟩
      · rintro ⟨before, entry, after, hsplit, hbefore, hentry⟩
        cases before with
        | nil =>
          cases hsplit
          rw [variableOf_of_faulty hentry] at hfirst
          cases hfirst
          rfl
        | cons other before =>
          cases hsplit
          obtain ⟨v, hv⟩ := variableOf_of_acceptable (hbefore _ List.mem_cons_self) name
          rw [hfirst] at hv
          cases hv
    | ok v =>
      have hfine := (exists_variableOf_iff name (fieldsOf value)).1 ⟨v, hfirst⟩
      have hrest : ofEntries ((name, value) :: rest) = .error e ↔ ofEntries rest = .error e := by
        show variableOf name (fieldsOf value) >>= _ = _ ↔ _
        rw [hfirst, Outcome.bind_ok]
        cases ofEntries rest with
        | ok schema => simp [Outcome.bind_ok]
        | error found => simp [Outcome.bind_error]
      rw [hrest, ih]
      constructor
      · rintro ⟨before, entry, after, rfl, hbefore, hentry⟩
        exact ⟨(name, value) :: before, entry, after, rfl,
          List.forall_mem_cons.2 ⟨hfine, hbefore⟩, hentry⟩
      · rintro ⟨before, entry, after, hsplit, hbefore, hentry⟩
        cases before with
        | nil =>
          cases hsplit
          rw [variableOf_of_faulty hentry] at hfirst
          cases hfirst
        | cons other before =>
          cases hsplit
          exact ⟨before, entry, after, rfl, (List.forall_mem_cons.1 hbefore).2, hentry⟩

theorem exists_ofEntries_iff (entries : Entries Json) :
    (∃ schema, ofEntries entries = .ok schema) ↔
      ∀ entry ∈ entries, Acceptable (fieldsOf entry.2) := by
  induction entries with
  | nil => simp [ofEntries]
  | cons first rest ih =>
    obtain ⟨name, value⟩ := first
    rw [List.forall_mem_cons, ← ih, ← exists_variableOf_iff name]
    constructor
    · rintro ⟨schema, h⟩
      obtain ⟨v, hv, h⟩ := Outcome.bind_eq_ok.1 h
      obtain ⟨others, hothers, -⟩ := Outcome.bind_eq_ok.1 h
      exact ⟨⟨v, hv⟩, others, hothers⟩
    · rintro ⟨⟨v, hv⟩, others, hothers⟩
      exact ⟨(name, v) :: others,
        Outcome.bind_eq_ok.2 ⟨v, hv, Outcome.bind_eq_ok.2 ⟨others, hothers, rfl⟩⟩⟩

/-- What the schema is like that variables are read into. -/
theorem ofEntries_eq_ok {entries : Entries Json} {schema : Schema}
    (h : ofEntries entries = .ok schema) :
    Entries.names schema = Entries.names entries ∧
      ∀ entry ∈ schema, entry.2.description ≠ "" ∧
        (entry.2.required = some true → entry.2.default = none) := by
  induction entries generalizing schema with
  | nil =>
    cases h
    exact ⟨rfl, by simp⟩
  | cons first rest ih =>
    obtain ⟨v, hv, h⟩ := Outcome.bind_eq_ok.1 h
    obtain ⟨others, hothers, h⟩ := Outcome.bind_eq_ok.1 h
    cases h
    obtain ⟨hnames, hvariables⟩ := ih hothers
    exact ⟨congrArg (first.1 :: ·) hnames,
      List.forall_mem_cons.2 ⟨variable_of_variableOf hv, hvariables⟩⟩

/-! ## All values -/

/-- Whether a value is an object. -/
def IsObject (value : Json) : Prop := ∃ fields, value = .object fields

theorem isObject_iff (value : Json) : value.isObject = true ↔ IsObject value := by
  unfold IsObject
  cases value <;> simp [Json.isObject]

theorem ofJson_of_objects {entries : Entries Json} (h : ∀ entry ∈ entries, IsObject entry.2) :
    ofJson (some (.object entries)) = ofEntries entries := by
  have hnone : (entries.find? fun entry => !entry.2.isObject) = none :=
    List.find?_eq_none.2 fun entry hentry => by simp [(isObject_iff entry.2).2 (h entry hentry)]
  simp only [ofJson, hnone]

theorem ofJson_of_other {before after : Entries Json} {entry : String × Json}
    (hbefore : ∀ other ∈ before, IsObject other.2) (hentry : ¬IsObject entry.2) :
    ofJson (some (.object (before ++ entry :: after))) = .error (.variableNotObject entry.1) := by
  have hfind : ((before ++ entry :: after).find? fun entry => !entry.2.isObject) = some entry := by
    refine List.find?_eq_some_iff_append.2 ⟨?_, before, after, rfl, fun other hother => ?_⟩
    · simpa [← isObject_iff] using hentry
    · simpa [← isObject_iff] using hbefore other hother
  simp only [ofJson, hfind]

/-- All values are objects, or there is a first one that is none. -/
theorem objects_or_other (entries : Entries Json) :
    (∀ entry ∈ entries, IsObject entry.2) ∨ ∃ before entry after,
      entries = before ++ entry :: after ∧ (∀ other ∈ before, IsObject other.2) ∧
        ¬IsObject entry.2 := by
  cases hfind : entries.find? fun entry => !entry.2.isObject with
  | none =>
    refine .inl fun entry hentry => ?_
    simpa [← isObject_iff] using List.find?_eq_none.1 hfind entry hentry
  | some entry =>
    obtain ⟨hentry, before, after, hsplit, hbefore⟩ := List.find?_eq_some_iff_append.1 hfind
    refine .inr ⟨before, entry, after, hsplit, fun other hother => ?_, ?_⟩
    · simpa [← isObject_iff] using hbefore other hother
    · simpa [← isObject_iff] using hentry

theorem exists_ofJson_object_iff (entries : Entries Json) :
    (∃ schema, ofJson (some (.object entries)) = .ok schema) ↔
      ∀ entry ∈ entries, ∃ fields, entry.2 = .object fields ∧ Acceptable fields := by
  rcases objects_or_other entries with hobjects | ⟨before, entry, after, rfl, hbefore, hno⟩
  · rw [ofJson_of_objects hobjects, exists_ofEntries_iff]
    refine forall₂_congr fun entry hentry => ?_
    obtain ⟨fields, hfields⟩ := hobjects entry hentry
    simp [hfields, fieldsOf, Json.fields?]
  · constructor
    · rintro ⟨schema, h⟩
      rw [ofJson_of_other hbefore hno] at h
      cases h
    · intro h
      obtain ⟨fields, hfields, -⟩ := h entry (by simp)
      exact absurd ⟨fields, hfields⟩ hno

theorem ofJson_object_eq_error_iff (entries : Entries Json) (e : Error) :
    ofJson (some (.object entries)) = .error e ↔
      (∃ before entry after, entries = before ++ entry :: after ∧
        (∀ other ∈ before, IsObject other.2) ∧ ¬IsObject entry.2 ∧
          e = .variableNotObject entry.1) ∨
      ((∀ entry ∈ entries, IsObject entry.2) ∧ ∃ before name fields after,
        entries = before ++ (name, .object fields) :: after ∧
          (∀ other ∈ before, Acceptable (fieldsOf other.2)) ∧ Faulty name fields e) := by
  constructor
  · intro h
    rcases objects_or_other entries with hobjects | ⟨before, entry, after, rfl, hbefore, hno⟩
    · rw [ofJson_of_objects hobjects, ofEntries_eq_error_iff] at h
      obtain ⟨before, ⟨name, value⟩, after, hsplit, hbefore, hfaulty⟩ := h
      obtain ⟨fields, hfields⟩ := hobjects (name, value) (by simp [hsplit])
      dsimp only at hfields
      subst hfields
      exact .inr ⟨hobjects, before, name, fields, after, hsplit, hbefore, hfaulty⟩
    · rw [ofJson_of_other hbefore hno] at h
      cases h
      exact .inl ⟨before, entry, after, rfl, hbefore, hno, rfl⟩
  · rintro (⟨before, entry, after, rfl, hbefore, hno, rfl⟩ |
      ⟨hobjects, before, name, fields, after, hsplit, hbefore, hfaulty⟩)
    · exact ofJson_of_other hbefore hno
    · rw [ofJson_of_objects hobjects, ofEntries_eq_error_iff]
      exact ⟨before, (name, .object fields), after, hsplit, hbefore, hfaulty⟩

/-- A value is accepted if it is `null`, or an object of objects that break no rule. The schema
names what the object names, in that order, and its definitions keep to the rules. Of an object that
is not accepted the first value that is no object is reported; where all of them are objects, the
first one that breaks a rule. -/
theorem validation_exact (value : Json) :
    ((∃ schema, ofJson (some value) = .ok schema) ↔ value = .null ∨ ∃ entries,
      value = .object entries ∧ ∀ entry ∈ entries, ∃ fields,
        entry.2 = .object fields ∧ Acceptable fields) ∧
    (∀ schema, ofJson (some value) = .ok schema →
      Entries.names schema = Entries.names (fieldsOf value) ∧
        ∀ entry ∈ schema, entry.2.description ≠ "" ∧
          (entry.2.required = some true → entry.2.default = none)) ∧
    (∀ entries e, value = .object entries → (ofJson (some value) = .error e ↔
      (∃ before entry after, entries = before ++ entry :: after ∧
        (∀ other ∈ before, IsObject other.2) ∧ ¬IsObject entry.2 ∧
          e = .variableNotObject entry.1) ∨
      ((∀ entry ∈ entries, IsObject entry.2) ∧ ∃ before name fields after,
        entries = before ++ (name, .object fields) :: after ∧
          (∀ other ∈ before, Acceptable (fieldsOf other.2)) ∧ Faulty name fields e))) := by
  refine ⟨?_, fun schema h => ?_, fun entries e hvalue => ?_⟩
  · cases value with
    | null => exact ⟨fun _ => .inl rfl, fun _ => ⟨[], rfl⟩⟩
    | object entries => simpa using exists_ofJson_object_iff entries
    | _ => simp [ofJson]
  · cases value with
    | null =>
      cases h
      exact ⟨rfl, by simp⟩
    | object entries =>
      rcases objects_or_other entries with hobjects | ⟨before, entry, after, rfl, hbefore, hno⟩
      · exact ofEntries_eq_ok ((ofJson_of_objects hobjects).symm.trans h)
      · rw [ofJson_of_other hbefore hno] at h
        cases h
    | _ => cases h
  · subst hvalue
    exact ofJson_object_eq_error_iff entries e

end Collector.Schema
