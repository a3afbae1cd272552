import Collector.Export.Reader
import Collector.Proofs.Occurrences
import Collector.Proofs.Outcomes

/-!
# What a module exports

Of the statements of a module one counts: the last of those at its top that assign an object to
`module.exports` (`ofSource_of_lastAssigns`). The object is read property by property, and so are
the objects inside it.

* `ReadsObject` says which entries an object has. A name has the place of its first property and the
  value of its last one; a property without a name that can be read off has no entry. No other
  entries fit the object (`ReadsObject.unique`).
* `Padded` relates objects that differ, at any depth, in properties without such names only. They
  are read alike (`Padded.exportFields_eq`).
* `exports_read_last_assignment` is the result. Any assignment operator counts, not `=` alone
  (`exports_read_addition`).
-/

namespace Collector

open Script

namespace Script

/-! ## Properties -/

/-- The key of a property. -/
def Property.key? : Property → Option Key
  | .field key _ _ _ | .method key _ _ | .accessor _ key _ _ => some key
  | .spread _ | .pending _ _ => none

/-- The name of a property, if it can be read off. -/
def Property.name? (p : Property) : Option String := p.key?.bind Key.text?

/-- The entry that a property makes. A method is a function, and of an accessor only the text is
known. -/
def Property.entry? : Property → Option (String × Export)
  | .field key value _ text => key.text?.map fun name => (name, value.export text)
  | .method key _ text => key.text?.map fun name => (name, .function text)
  | .accessor _ key _ text => key.text?.map fun name => (name, .dynamic text)
  | .spread _ | .pending _ _ => none

theorem Property.map_fst_entry? (p : Property) : p.entry?.map Prod.fst = p.name? := by
  cases p with
  | field key _ _ _ | method key _ _ | accessor _ key _ _ =>
    show (key.text?.map _).map Prod.fst = key.text?
    rw [Option.map_map]
    exact Option.map_id'
  | spread _ | pending _ _ => rfl

theorem Property.entry?_eq_none_iff {p : Property} : p.entry? = none ↔ p.name? = none := by
  rw [← p.map_fst_entry?, Option.map_eq_none_iff]

theorem exportFields_eq (properties : List Property) :
    exportFields properties = properties.filterMap Property.entry? := by
  induction properties with
  | nil => rfl
  | cons p rest ih =>
    cases p with
    | field key value shorthand text | method key f text | accessor kind key f text =>
      rw [exportFields, ih, List.filterMap_cons, Property.entry?]
      cases key.text? <;> rfl
    | spread value | pending id value => rw [exportFields, ih, List.filterMap_cons, Property.entry?]

theorem names_exportFields (properties : List Property) :
    Entries.names (exportFields properties) = properties.filterMap Property.name? := by
  rw [exportFields_eq, Entries.names, List.map_filterMap]
  exact List.filterMap_congr fun p _ => p.map_fst_entry?

/-! ## Objects -/

/-- Whether an object of some properties has some entries. -/
structure ReadsObject (properties : List Property) (entries : Entries Export) : Prop where
  names : ListsFirst (fun _ => True) (properties.filterMap Property.name?) (Entries.names entries)
  last : ∀ name value, Entries.get? entries name = some value ↔ ∃ front p back,
    properties = front ++ p :: back ∧ p.entry? = some (name, value) ∧
      ∀ q ∈ back, q.name? ≠ some name

theorem readsObject_ofList (properties : List Property) :
    ReadsObject properties (Entries.ofList (exportFields properties)) where
  names := by
    rw [← names_exportFields]
    exact Entries.listsFirst_names_ofList _
  last name value := by
    rw [Entries.get?_ofList_eq_getLast?, exportFields_eq, List.filterMap_filterMap,
      getLast?_filterMap_eq_some_iff]
    have hentry (p : Property) (value : Export) :
        (p.entry?.bind fun entry => if entry.1 = name then some entry.2 else none) = some value ↔
          p.entry? = some (name, value) := by
      cases p.entry? with
      | none => simp
      | some entry => simp [Prod.ext_iff]
    have hnone (p : Property) :
        (p.entry?.bind fun entry => if entry.1 = name then some entry.2 else none) = none ↔
          p.name? ≠ some name := by
      rw [← p.map_fst_entry?]
      cases p.entry? with
      | none => simp
      | some entry => simp
    simp only [hentry, hnone]

variable {properties properties' : List Property} {entries others : Entries Export}

/-- The entries of an object are determined. -/
theorem ReadsObject.unique (h : ReadsObject properties entries)
    (h' : ReadsObject properties others) : entries = others := by
  refine Entries.eq_of_names_of_get? h.names.once (h.names.unique h'.names) fun name => ?_
  exact Option.ext fun value => (h.last name value).trans (h'.last name value).symm

theorem readsObject_iff :
    ReadsObject properties entries ↔ entries = Entries.ofList (exportFields properties) :=
  ⟨fun h => h.unique (readsObject_ofList properties), fun h => h ▸ readsObject_ofList properties⟩

theorem Expr.export_of_withoutParens {e : Expr} {comma : Bool}
    (h : e.withoutParens = .object properties comma) (text : String) :
    e.export text = .object (Entries.ofList (exportFields properties)) := by
  induction e using Expr.withoutParens.induct generalizing text with
  | case1 inside inner ih =>
    rw [Expr.export]
    exact ih h inside
  | case2 e hne =>
    rw [Expr.withoutParens] at h
    rw [h, Expr.export]
    exact hne

/-- Only an object is read as one, and parentheses around it do not count. -/
theorem Expr.export_eq_object_iff {e : Expr} {text : String} :
    e.export text = .object entries ↔
      ∃ properties comma, e.withoutParens = .object properties comma ∧
        ReadsObject properties entries := by
  simp only [readsObject_iff]
  constructor
  · intro h
    induction e using Expr.withoutParens.induct generalizing text with
    | case1 inside inner ih =>
      rw [Expr.export] at h
      exact ih h
    | case2 e hne =>
      unfold Expr.export at h
      split at h
      · cases h
      · cases h
      next properties comma => exact ⟨properties, comma, rfl, (Export.object.inj h).symm⟩
      next inside inner => exact (hne inside inner rfl).elim
      · split at h <;> cases h
  · rintro ⟨properties, comma, h, rfl⟩
    exact Expr.export_of_withoutParens h text

/-! ## Properties without names -/

/-- Whether two objects have the same properties up to those without names that can be read off, and
so do the objects that stand, perhaps in parentheses, as values in them. -/
inductive Padded : List Property → List Property → Prop
  | nil : Padded [] []
  | left {p : Property} {properties properties' : List Property} (hp : p.name? = none)
      (h : Padded properties properties') : Padded (p :: properties) properties'
  | right {p : Property} {properties properties' : List Property} (hp : p.name? = none)
      (h : Padded properties properties') : Padded properties (p :: properties')
  | same (p : Property) {properties properties' : List Property}
      (h : Padded properties properties') : Padded (p :: properties) (p :: properties')
  | object (key : Key) {value value' : Expr} {shorthand shorthand' : Bool} {text text' : String}
      {inner inner' : List Property} {comma comma' : Bool} {properties properties' : List Property}
      (hvalue : value.withoutParens = .object inner comma)
      (hvalue' : value'.withoutParens = .object inner' comma') (hinner : Padded inner inner')
      (h : Padded properties properties') :
      Padded (.field key value shorthand text :: properties)
        (.field key value' shorthand' text' :: properties')

theorem Padded.exportFields_eq (h : Padded properties properties') :
    exportFields properties = exportFields properties' := by
  simp only [Script.exportFields_eq] at *
  induction h with
  | nil => rfl
  | left hp _ ih => rw [List.filterMap_cons_none (Property.entry?_eq_none_iff.mpr hp), ih]
  | right hp _ ih => rw [List.filterMap_cons_none (Property.entry?_eq_none_iff.mpr hp), ih]
  | same p _ ih => rw [List.filterMap_cons, List.filterMap_cons, ih]
  | object key hvalue hvalue' _ _ ihinner ih =>
    rw [List.filterMap_cons, List.filterMap_cons, Property.entry?, Property.entry?,
      Expr.export_of_withoutParens hvalue, Expr.export_of_withoutParens hvalue',
      Script.exportFields_eq, Script.exportFields_eq, ihinner, ih]

/-! ## Statements -/

/-- A statement assigns an object, perhaps in parentheses, to `module.exports`. -/
def Statement.Assigns (s : Statement) (op : AssignOp) (properties : List Property) : Prop :=
  ∃ target value comma, s = .expression (.assign op (.place target) value) ∧
    target.withoutParens = .member (.name "module") "exports" false ∧
    value.withoutParens = .object properties comma

/-- The last statement of a script that assigns an object to `module.exports`. -/
def Body.LastAssigns (body : Body) (op : AssignOp) (properties : List Property) : Prop :=
  ∃ front s back, body.statements = front ++ s :: back ∧ s.Assigns op properties ∧
    ∀ t ∈ back, ∀ op properties, ¬ t.Assigns op properties

theorem isModuleExports_iff {e : Expr} :
    isModuleExports e = true ↔ e.withoutParens = .member (.name "module") "exports" false := by
  unfold isModuleExports
  split
  next object property h => simp [h]
  next hne => exact iff_of_false Bool.false_ne_true (hne _ _)

theorem Statement.exported?_eq_some_iff {s : Statement} :
    s.exported? = some properties ↔ ∃ op, s.Assigns op properties := by
  constructor
  · intro h
    unfold Statement.exported? at h
    split at h
    next op target value =>
      split at h
      next comma htarget hvalue =>
        obtain rfl := Option.some.inj h
        exact ⟨op, target, value, comma, rfl, isModuleExports_iff.mp htarget, hvalue⟩
      · cases h
    · cases h
  · rintro ⟨op, target, value, comma, rfl, htarget, hvalue⟩
    unfold Statement.exported?
    dsimp only
    rw [isModuleExports_iff.mpr htarget, hvalue]

theorem Statement.exported?_eq_none_iff {s : Statement} :
    s.exported? = none ↔ ∀ op properties, ¬ s.Assigns op properties := by
  rw [Option.eq_none_iff_forall_ne_some]
  simp only [ne_eq, exported?_eq_some_iff, not_exists]
  exact forall_comm

theorem Body.getLast?_exported {body : Body} :
    (body.statements.filterMap Statement.exported?).getLast? = some properties ↔
      ∃ op, body.LastAssigns op properties := by
  rw [getLast?_filterMap_eq_some_iff]
  simp only [Statement.exported?_eq_some_iff, Statement.exported?_eq_none_iff]
  constructor
  · rintro ⟨front, s, back, hstatements, ⟨op, hs⟩, hback⟩
    exact ⟨op, front, s, back, hstatements, hs, hback⟩
  · rintro ⟨op, front, s, back, hstatements, hs, hback⟩
    exact ⟨front, s, back, hstatements, ⟨op, hs⟩, hback⟩

/-- The statements that assign have a last one. -/
theorem Body.exists_lastAssigns_iff {body : Body} :
    (∃ op properties, body.LastAssigns op properties) ↔
      ∃ s ∈ body.statements, ∃ op properties, s.Assigns op properties := by
  constructor
  · rintro ⟨op, properties, front, s, back, hstatements, hs, -⟩
    refine ⟨s, ?_, op, properties, hs⟩
    rw [hstatements]
    exact List.mem_append_right _ List.mem_cons_self
  · rintro ⟨s, hs, op, properties, hassigns⟩
    have hmem := List.mem_filterMap.mpr ⟨s, hs, Statement.exported?_eq_some_iff.mpr ⟨op, hassigns⟩⟩
    obtain ⟨last, hlast⟩ := Option.isSome_iff_exists.mp
      (List.getLast?_isSome.mpr (List.ne_nil_of_mem hmem))
    obtain ⟨op, hlast⟩ := Body.getLast?_exported.mp hlast
    exact ⟨op, last, hlast⟩

end Script

/-! ## Modules -/

section Modules

variable {source : String} {body : Body} {op : AssignOp} {properties : List Property}

theorem ofSource_of_lastAssigns (h : parseScript? source = some body)
    (hlast : body.LastAssigns op properties) :
    Exports.ofSource source = .ok (Entries.ofList (exportFields properties)) := by
  unfold Exports.ofSource
  rw [h]
  dsimp only
  rw [Body.getLast?_exported.mpr ⟨op, hlast⟩]

theorem ofSource_of_no_assignment (h : parseScript? source = some body)
    (hnone : ∀ op properties, ¬ body.LastAssigns op properties) :
    Exports.ofSource source = .error (.moduleFault none .noExports) := by
  unfold Exports.ofSource
  rw [h]
  dsimp only
  split
  next properties hproperties =>
    obtain ⟨op, hlast⟩ := Body.getLast?_exported.mp hproperties
    exact absurd hlast (hnone op properties)
  · rfl

theorem ofSource_succeeds_iff (h : parseScript? source = some body) :
    (∃ exports, Exports.ofSource source = .ok exports) ↔
      ∃ s ∈ body.statements, ∃ op properties, s.Assigns op properties := by
  rw [← Body.exists_lastAssigns_iff]
  constructor
  · rintro ⟨exports, hexports⟩
    by_contra hnone
    push Not at hnone
    rw [ofSource_of_no_assignment h hnone] at hexports
    cases hexports
  · rintro ⟨op, properties, hlast⟩
    exact ⟨_, ofSource_of_lastAssigns h hlast⟩

theorem ofSource_eq_ok_iff (h : parseScript? source = some body) (exports : Exports) :
    Exports.ofSource source = .ok exports ↔
      ∃ op properties, body.LastAssigns op properties ∧ ReadsObject properties exports := by
  constructor
  · intro hexports
    obtain ⟨op, properties, hlast⟩ :=
      Body.exists_lastAssigns_iff.mpr ((ofSource_succeeds_iff h).mp ⟨exports, hexports⟩)
    rw [ofSource_of_lastAssigns h hlast] at hexports
    exact ⟨op, properties, hlast, readsObject_iff.mpr (Except.ok.inj hexports).symm⟩
  · rintro ⟨op, properties, hlast, hexports⟩
    rw [ofSource_of_lastAssigns h hlast, readsObject_iff.mp hexports]

/-- A module that can be read exports something exactly if a statement at its top assigns an object
to `module.exports`, with whatever operator: with `=`, if no other one is used. Otherwise it is an
error. What is exported are the entries of the last such object, and no other statement counts.
Objects inside are read in the same way, and properties without names that can be read off may be
put in or taken out at any depth. -/
theorem exports_read_last_assignment (h : parseScript? source = some body) :
    ((∃ exports, Exports.ofSource source = .ok exports) ↔
      ∃ s ∈ body.statements, ∃ op properties, s.Assigns op properties) ∧
    ((∀ s ∈ body.statements, ∀ op properties, s.Assigns op properties → op = .set) →
      ((∃ exports, Exports.ofSource source = .ok exports) ↔
        ∃ s ∈ body.statements, ∃ properties, s.Assigns .set properties)) ∧
    ((∀ s ∈ body.statements, ∀ op properties, ¬ s.Assigns op properties) →
      Exports.ofSource source = .error (.moduleFault none .noExports)) ∧
    (∀ exports, Exports.ofSource source = .ok exports ↔
      ∃ op properties, body.LastAssigns op properties ∧ ReadsObject properties exports) ∧
    (∀ e text entries, Expr.export text e = .object entries ↔
      ∃ inner comma, e.withoutParens = .object inner comma ∧ ReadsObject inner entries) ∧
    ∀ op properties, body.LastAssigns op properties →
      ∀ source' body' op' properties', parseScript? source' = some body' →
        body'.LastAssigns op' properties' → Padded properties properties' →
        Exports.ofSource source' = Exports.ofSource source := by
  have hsucceeds := ofSource_succeeds_iff h
  refine ⟨hsucceeds, fun hset => ?_, fun hnone => ?_, ofSource_eq_ok_iff h,
    fun e text entries => Expr.export_eq_object_iff, fun op properties hlast => ?_⟩
  · rw [hsucceeds]
    constructor
    · rintro ⟨s, hs, op, properties, hassigns⟩
      obtain rfl := hset s hs op properties hassigns
      exact ⟨s, hs, properties, hassigns⟩
    · rintro ⟨s, hs, properties, hassigns⟩
      exact ⟨s, hs, .set, properties, hassigns⟩
  · refine ofSource_of_no_assignment h fun op properties hlast => ?_
    obtain ⟨s, hs, op, properties, hassigns⟩ :=
      Body.exists_lastAssigns_iff.mp ⟨op, properties, hlast⟩
    exact hnone s hs op properties hassigns
  · intro source' body' op' properties' h' hlast' hpadded
    rw [ofSource_of_lastAssigns h hlast, ofSource_of_lastAssigns h' hlast',
      hpadded.exportFields_eq]

end Modules

/-! ## Two modules that export the same -/

/-- A module that assigns twice. The second object holds a name in two spellings and, at both
depths, properties without names. -/
def paddedModule : String :=
  "module.exports=\x7ba:0\x7d;module.exports=(\x7bx:\x7by:u,'y':v,...r\x7d,[k]:w\x7d)"

/-- A module that assigns the same object without them. -/
def plainModule : String := "module.exports=\x7bx:\x7by:u,'y':v\x7d\x7d"

/-- The shape of the object that the first module assigns. -/
def isPaddedObject : List Property → Bool
  | [.field (.name "x") (.object [.field (.name "y") (.name "u") false "u",
      .field (.string "y") (.name "v") false "v", .spread _] _) _ _, .field (.computed _) _ _ _] =>
    true
  | _ => false

/-- The shape of the object that the second module assigns. -/
def isPlainObject : List Property → Bool
  | [.field (.name "x") (.object [.field (.name "y") (.name "u") false "u",
      .field (.string "y") (.name "v") false "v"] _) _ _] => true
  | _ => false

theorem padded_of_shapes {properties properties' : List Property}
    (h : isPaddedObject properties = true) (h' : isPlainObject properties' = true) :
    Padded properties properties' := by
  unfold isPaddedObject at h
  split at h
  · unfold isPlainObject at h'
    split at h'
    · exact .object _ rfl rfl (.same _ (.same _ (.left rfl .nil))) (.left rfl .nil)
    · cases h'
  · cases h

theorem readsObject_of_shape {properties : List Property} (h : isPaddedObject properties = true) :
    ReadsObject properties [("x", .object [("y", .dynamic "v")])] := by
  unfold isPaddedObject at h
  split at h
  · exact readsObject_iff.mpr rfl
  · cases h

theorem exists_of_shape {source : String} {shape : List Property → Bool}
    (h : (parseScript? source).map (fun body =>
      (body.statements.filterMap Statement.exported?).getLast?.map shape) = some (some true)) :
    ∃ body op properties, parseScript? source = some body ∧ body.LastAssigns op properties ∧
      shape properties = true := by
  obtain ⟨body, hbody, h⟩ := Option.map_eq_some_iff.mp h
  obtain ⟨properties, hlast, hshape⟩ := Option.map_eq_some_iff.mp h
  obtain ⟨op, hlast⟩ := Body.getLast?_exported.mp hlast
  exact ⟨body, op, properties, hbody, hlast, hshape⟩

/-- Both modules export one object, in which the name stands for its last value. -/
theorem exports_read_last_assignment_padded :
    (∃ body, parseScript? paddedModule = some body) ∧
      Exports.ofSource paddedModule = .ok [("x", .object [("y", .dynamic "v")])] ∧
      Exports.ofSource plainModule = Exports.ofSource paddedModule := by
  have hpadded : (parseScript? paddedModule).map (fun body =>
      (body.statements.filterMap Statement.exported?).getLast?.map isPaddedObject) =
        some (some true) := by
    decide +kernel
  have hplain : (parseScript? plainModule).map (fun body =>
      (body.statements.filterMap Statement.exported?).getLast?.map isPlainObject) =
        some (some true) := by
    decide +kernel
  obtain ⟨body, op, properties, hbody, hlast, hshape⟩ := exists_of_shape hpadded
  obtain ⟨body', op', properties', hbody', hlast', hshape'⟩ := exists_of_shape hplain
  obtain ⟨-, -, -, hentries, -, hsame⟩ := exports_read_last_assignment hbody
  have hok := (hentries _).mpr ⟨op, properties, hlast, readsObject_of_shape hshape⟩
  have hequal := hsame op properties hlast plainModule body' op' properties' hbody' hlast'
    (padded_of_shapes hshape hshape')
  exact ⟨⟨body, hbody⟩, hok, hequal⟩

/-- The operator of an assignment. -/
def Script.Statement.operator? : Statement → Option AssignOp
  | .expression (.assign op _ _) => some op
  | _ => none

theorem Script.Statement.Assigns.operator?_eq {s : Statement} {op : AssignOp}
    {properties : List Property} (h : s.Assigns op properties) : s.operator? = some op := by
  obtain ⟨target, value, comma, rfl, -, -⟩ := h
  rfl

/-- An object that is added to the exports makes them a text. Its entries are exported all the
same. -/
theorem exports_read_addition :
    ∃ body, parseScript? "module.exports += \x7b a: 1 \x7d;" = some body ∧
      (∀ s ∈ body.statements, ∀ properties, ¬ s.Assigns .set properties) ∧
      ∃ exports, Exports.ofSource "module.exports += \x7b a: 1 \x7d;" = .ok exports ∧
        Entries.names exports = ["a"] := by
  have hoperators : (parseScript? "module.exports += \x7b a: 1 \x7d;").map (fun body =>
      body.statements.map Statement.operator?) = some [some (.binary .add)] := by
    decide +kernel
  have hnames : (Exports.ofSource "module.exports += \x7b a: 1 \x7d;").toOption.map Entries.names =
      some ["a"] := by
    decide +kernel
  obtain ⟨body, hbody, hoperators⟩ := Option.map_eq_some_iff.mp hoperators
  obtain ⟨exports, hexports, hnames⟩ := Option.map_eq_some_iff.mp hnames
  refine ⟨body, hbody, fun s hs properties hassigns => ?_, exports,
    Outcome.eq_ok_of_toOption hexports, hnames⟩
  have hmem : s.operator? ∈ [some (.binary .add)] := hoperators ▸ List.mem_map_of_mem hs
  rw [hassigns.operator?_eq] at hmem
  simp at hmem

end Collector
