import Collector.Export.Reader
import Collector.Proofs.Json.Same
import Collector.Proofs.Outcomes

/-!
# Exports are well-formed

What is read off a syntax tree is well-formed: a name that is written twice stands for its last
value, and a number without a finite value is not constant. So the JSON value that an export shows
is well-formed too.
-/

namespace Collector

open Script

/-! ## Constants -/

theorem numberJson?_wellFormed {value : Double} {json : Json} (h : numberJson? value = some json) :
    json.WellFormed := by
  unfold numberJson? at h
  split at h
  · obtain rfl := Option.some.inj h
    trivial
  · obtain rfl := Option.some.inj h
    exact Double.sameValue_finite _ _ _
  · cases h

/-- A constant that holds no other expression is well-formed. -/
theorem scalar_wellFormed {e : Expr} {json : Json} (h : e.literal? = some json)
    (harray : ∀ items comma, e ≠ .array items comma)
    (hobject : ∀ properties comma, e ≠ .object properties comma)
    (hparen : ∀ inside inner, e ≠ .paren inside inner) : json.WellFormed := by
  unfold Expr.literal? at h
  split at h
  · obtain rfl := Option.some.inj h
    trivial
  · obtain rfl := Option.some.inj h
    trivial
  · exact numberJson?_wellFormed h
  · obtain rfl := Option.some.inj h
    trivial
  · obtain rfl := Option.some.inj h
    trivial
  · split at h
    · obtain rfl := Option.some.inj h
      trivial
    · cases h
  · exact numberJson?_wellFormed h
  · exact (harray _ _ rfl).elim
  · exact (hobject _ _ rfl).elim
  · exact (hparen _ _ rfl).elim
  · cases h

mutual

theorem literal?_wellFormed (e : Expr) {json : Json} (h : e.literal? = some json) :
    json.WellFormed := by
  cases e with
  | array items comma =>
    obtain ⟨values, hvalues, rfl⟩ := Option.map_eq_some_iff.1 h
    exact (Json.wellFormedItems_iff values).2 (literalItems?_wellFormed items hvalues)
  | object properties comma =>
    obtain ⟨fields, hfields, rfl⟩ := Option.map_eq_some_iff.1 h
    exact Json.wellFormed_ofList (literalFields?_wellFormed properties hfields)
  | paren inside inner => exact literal?_wellFormed inner h
  | _ => exact scalar_wellFormed h nofun nofun nofun
termination_by structural e

theorem literalItems?_wellFormed (items : List Expr) {values : List Json}
    (h : literalItems? items = some values) : ∀ value ∈ values, value.WellFormed := by
  cases items with
  | nil =>
    cases h
    simp
  | cons e rest =>
    obtain ⟨value, hvalue, h⟩ := Option.bind_eq_some_iff.1 h
    obtain ⟨others, hothers, h⟩ := Option.bind_eq_some_iff.1 h
    obtain rfl := Option.some.inj h
    exact List.forall_mem_cons.2
      ⟨literal?_wellFormed e hvalue, literalItems?_wellFormed rest hothers⟩
termination_by structural items

theorem literalFields?_wellFormed (properties : List Property) {fields : List (String × Json)}
    (h : literalFields? properties = some fields) : ∀ field ∈ fields, field.2.WellFormed := by
  cases properties with
  | nil =>
    cases h
    simp
  | cons property rest =>
    cases property with
    | field key e shorthand text =>
      obtain ⟨name, hname, h⟩ := Option.bind_eq_some_iff.1 h
      obtain ⟨value, hvalue, h⟩ := Option.bind_eq_some_iff.1 h
      obtain ⟨others, hothers, h⟩ := Option.bind_eq_some_iff.1 h
      obtain rfl := Option.some.inj h
      exact List.forall_mem_cons.2
        ⟨literal?_wellFormed e hvalue, literalFields?_wellFormed rest hothers⟩
    | _ => cases h
termination_by structural properties

end

/-! ## Exports -/

mutual

/-- Whether no object inside has two entries of one name, and all constants are well-formed. -/
def Export.WellFormed : Export → Prop
  | .literal value => value.WellFormed
  | .object entries => (Entries.names entries).Nodup ∧ Export.WellFormedEntries entries
  | _ => True

/-- Whether the values of all entries are well-formed. -/
def Export.WellFormedEntries : List (String × Export) → Prop
  | [] => True
  | (_, value) :: rest => value.WellFormed ∧ Export.WellFormedEntries rest

end

/-- Whether the exports of a module are well-formed. -/
def Exports.WellFormed (exports : Exports) : Prop :=
  (Entries.names exports).Nodup ∧ ∀ entry ∈ exports, entry.2.WellFormed

namespace Export

theorem wellFormedEntries_iff (entries : Entries Export) :
    WellFormedEntries entries ↔ ∀ entry ∈ entries, entry.2.WellFormed := by
  induction entries with
  | nil => simp [WellFormedEntries]
  | cons entry rest ih => rw [WellFormedEntries, ih, List.forall_mem_cons]

theorem wellFormed_object_iff (entries : Entries Export) :
    (Export.object entries).WellFormed ↔ Exports.WellFormed entries := by
  rw [WellFormed, wellFormedEntries_iff]
  rfl

end Export

theorem Exports.wellFormed_ofList {list : List (String × Export)}
    (h : ∀ entry ∈ list, entry.2.WellFormed) : Exports.WellFormed (Entries.ofList list) := by
  refine ⟨Entries.nodup_ofList list, fun entry hentry => ?_⟩
  rcases Entries.mem_putAll hentry with hnil | ⟨addition, hmem, hvalue⟩
  · cases hnil
  · rw [hvalue]
    exact h addition hmem

mutual

theorem export_wellFormed (text : String) (e : Expr) : (e.export text).WellFormed := by
  cases e with
  | function f => trivial
  | arrow valueText f => trivial
  | object properties comma =>
    exact (Export.wellFormed_object_iff _).2
      (Exports.wellFormed_ofList (exportFields_wellFormed properties))
  | paren inside inner => exact export_wellFormed inside inner
  | _ =>
    unfold Expr.export
    split
    · exact literal?_wellFormed _ ‹_›
    · trivial
termination_by structural e

theorem exportFields_wellFormed (properties : List Property) :
    ∀ entry ∈ exportFields properties, entry.2.WellFormed := by
  have keyed {key : Key} {value : Export} (hvalue : value.WellFormed) :
      ∀ entry ∈ (key.text?.map fun name => (name, value)).toList, entry.2.WellFormed := by
    cases key.text? with
    | none => simp
    | some name => simpa using hvalue
  cases properties with
  | nil => simp [exportFields]
  | cons property rest =>
    have hrest := exportFields_wellFormed rest
    cases property with
    | field key e shorthand text =>
      exact List.forall_mem_append.2 ⟨keyed (export_wellFormed text e), hrest⟩
    | method key f text => exact List.forall_mem_append.2 ⟨keyed trivial, hrest⟩
    | accessor kind key f text => exact List.forall_mem_append.2 ⟨keyed trivial, hrest⟩
    | spread e => exact hrest
    | pending name e => exact hrest
termination_by structural properties

end

/-- The exports that are read off a source are well-formed. -/
theorem Exports.wellFormed_of_source {source : String} {exports : Exports}
    (h : Exports.ofSource source = .ok exports) : exports.WellFormed := by
  unfold Exports.ofSource at h
  split at h
  · cases h
  · split at h
    · rename_i properties _
      cases h
      exact Exports.wellFormed_ofList (exportFields_wellFormed properties)
    · cases h

/-! ## The values that exports show -/

theorem names_shownFields (entries : Entries Export) :
    Entries.names (Export.shownFields entries) = Entries.names entries := by
  induction entries with
  | nil => rfl
  | cons entry rest ih => exact congrArg (entry.1 :: ·) ih

mutual

theorem shownJson_wellFormed (value : Export) (h : value.WellFormed) :
    value.shownJson.WellFormed := by
  cases value with
  | function source => trivial
  | dynamic source => trivial
  | literal json => exact h
  | object entries =>
    obtain ⟨hnodup, hentries⟩ := (Export.wellFormed_object_iff entries).1 h
    refine (Json.wellFormed_object_iff _).2 ⟨?_, shownFields_wellFormed entries hentries⟩
    rw [names_shownFields]
    exact hnodup

theorem shownFields_wellFormed (entries : List (String × Export))
    (h : ∀ entry ∈ entries, entry.2.WellFormed) :
    ∀ field ∈ Export.shownFields entries, field.2.WellFormed := by
  cases entries with
  | nil => simp [Export.shownFields]
  | cons entry rest =>
    obtain ⟨name, value⟩ := entry
    obtain ⟨hvalue, hrest⟩ := List.forall_mem_cons.1 h
    exact List.forall_mem_cons.2
      ⟨shownJson_wellFormed value hvalue, shownFields_wellFormed rest hrest⟩

end

end Collector
