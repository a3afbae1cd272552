import Collector.Proofs.Export.Static
import Collector.Proofs.Keys

/-!
# Two readers of constants

A constant is read in two ways. Where it is exported, an object is read entry by entry, and what is
no constant may stand in it. Inside an array everything must be constant, and so it is read at once.
What is constant means the same JSON value to both.

* `jsonFields?_ofList` collects entries of which names may repeat: the first place and the last
  value count, whether they are collected before they are read as JSON or after.
* `json?_export` compares the two readers, by induction on the expression.
* `readers_agree` is the result.
-/

namespace Collector

open Script

namespace Export

/-! ## Entries of which names may repeat -/

theorem jsonFields?_put {entries : Entries Export} {fields : Entries Json}
    (h : jsonFields? entries = some fields) (name : String) {value : Export} {json : Json}
    (hvalue : value.json? = some json) :
    jsonFields? (Entries.put entries name value) = some (Entries.put fields name json) := by
  induction entries generalizing fields with
  | nil =>
    cases h
    show jsonFields? [(name, value)] = _
    rw [jsonFields?_cons, hvalue]
    rfl
  | cons entry rest ih =>
    rw [jsonFields?_cons] at h
    obtain ⟨first, hfirst, h⟩ := Option.bind_eq_some_iff.1 h
    obtain ⟨others, hothers, h⟩ := Option.bind_eq_some_iff.1 h
    obtain rfl := Option.some.inj h
    unfold Entries.put
    by_cases hname : entry.1 = name
    · rw [if_pos hname, if_pos hname, jsonFields?_cons, hvalue, hothers]
      rfl
    · rw [if_neg hname, if_neg hname, jsonFields?_cons, hfirst, ih hothers]
      rfl

theorem jsonFields?_putAll {entries additions : Entries Export} {fields more : Entries Json}
    (h : jsonFields? entries = some fields) (hmore : jsonFields? additions = some more) :
    jsonFields? (Entries.putAll entries additions) = some (Entries.putAll fields more) := by
  induction additions generalizing entries fields more with
  | nil =>
    cases hmore
    exact h
  | cons entry rest ih =>
    rw [jsonFields?_cons] at hmore
    obtain ⟨json, hjson, hmore⟩ := Option.bind_eq_some_iff.1 hmore
    obtain ⟨others, hothers, hmore⟩ := Option.bind_eq_some_iff.1 hmore
    obtain rfl := Option.some.inj hmore
    show jsonFields? (Entries.putAll (Entries.put entries entry.1 entry.2) rest) =
      some (Entries.putAll (Entries.put fields entry.1 json) others)
    exact ih (jsonFields?_put h entry.1 hjson) hothers

theorem jsonFields?_ofList {list : List (String × Export)} {fields : List (String × Json)}
    (h : jsonFields? list = some fields) :
    jsonFields? (Entries.ofList list) = some (Entries.ofList fields) :=
  jsonFields?_putAll rfl h

end Export

/-! ## The two readers -/

theorem json?_of_literal? {e : Expr} (text : String) {value : Json} (h : e.literal? = some value) :
    (match e.literal? with
      | some value => Export.literal value
      | none => .dynamic text).json? = some value := by
  rw [h]
  rfl

mutual

theorem json?_export (text : String) (e : Expr) {value : Json} (h : e.literal? = some value) :
    (e.export text).json? = some value := by
  cases e with
  | function f => cases h
  | arrow inside f => cases h
  | object properties comma =>
    obtain ⟨fields, hfields, rfl⟩ := Option.map_eq_some_iff.1 h
    have hentries := Export.jsonFields?_ofList (jsonFields?_exportFields properties hfields)
    exact Option.map_eq_some_iff.2 ⟨_, hentries, rfl⟩
  | paren inside inner => exact json?_export inside inner h
  | _ => exact json?_of_literal? text h
termination_by structural e

theorem jsonFields?_exportFields (properties : List Property) {fields : List (String × Json)}
    (h : literalFields? properties = some fields) :
    Export.jsonFields? (exportFields properties) = some fields := by
  cases properties with
  | nil => exact h
  | cons property rest =>
    cases property with
    | field key e shorthand text =>
      obtain ⟨name, hname, h⟩ := Option.bind_eq_some_iff.1 h
      obtain ⟨value, hvalue, h⟩ := Option.bind_eq_some_iff.1 h
      obtain ⟨others, hothers, h⟩ := Option.bind_eq_some_iff.1 h
      obtain rfl := Option.some.inj h
      rw [exportFields, hname]
      show Export.jsonFields? ((name, e.export text) :: exportFields rest) = _
      rw [Export.jsonFields?_cons, json?_export text e hvalue,
        jsonFields?_exportFields rest hothers]
      rfl
    | _ => cases h
termination_by structural properties

end

/-! ## Constants inside others -/

theorem exportFields_append (front back : List Property) :
    exportFields (front ++ back) = exportFields front ++ exportFields back := by
  induction front with
  | nil => rfl
  | cons property rest ih =>
    cases property <;> simp only [List.cons_append, exportFields, ih, List.append_assoc]

/-- The last property of a name is the one that is exported. -/
theorem get?_exportFields_field {key : Key} {name : String} (hkey : key.text? = some name)
    (front back : List Property) (hback : name ∉ Entries.names (exportFields back)) (e : Expr)
    (shorthand : Bool) (text : String) :
    Entries.get? (Entries.ofList (exportFields (front ++ .field key e shorthand text :: back)))
      name = some (e.export text) := by
  have hfield : exportFields (.field key e shorthand text :: back) =
      [(name, e.export text)] ++ exportFields back := by
    rw [exportFields, hkey]
    rfl
  have hnone : Entries.get? (Entries.ofList (exportFields back)) name = none := by
    rw [Entries.get?_eq_none_iff]
    exact fun hmem => hback (Entries.mem_of_mem_names_ofList hmem)
  rw [exportFields_append, hfield, Entries.get?_ofList_append, Entries.get?_ofList_append, hnone]
  exact congrArg (Option.or · _) (Entries.get?_put_self [] name (e.export text))

theorem literalItems?_append {front back : List Expr} {values others : List Json}
    (h : literalItems? front = some values) (h' : literalItems? back = some others) :
    literalItems? (front ++ back) = some (values ++ others) := by
  induction front generalizing values with
  | nil =>
    cases h
    exact h'
  | cons e rest ih =>
    obtain ⟨value, hvalue, h⟩ := Option.bind_eq_some_iff.1 h
    obtain ⟨more, hmore, h⟩ := Option.bind_eq_some_iff.1 h
    obtain rfl := Option.some.inj h
    rw [List.cons_append, literalItems?, hvalue, ih hmore]
    rfl

/-- A constant means one JSON value, with its names in one order at every level: where it is
exported, as an entry of an exported object, and at its place in an array of constants. -/
theorem readers_agree {e : Expr} {value : Json} (h : e.literal? = some value) :
    (∀ text, (e.export text).json? = some value) ∧
      (∀ key name, key.text? = some name →
        ∀ front back, name ∉ Entries.names (exportFields back) →
        ∀ shorthand text outer comma, ∃ entries,
          (Expr.object (front ++ .field key e shorthand text :: back) comma).export outer =
            .object entries ∧
          (Entries.get? entries name).bind Export.json? = some value) ∧
      ∀ front values back others, literalItems? front = some values →
        literalItems? back = some others →
        ∀ text comma, ((Expr.array (front ++ e :: back) comma).export text).json? =
          some (.array (values ++ value :: others)) := by
  refine ⟨fun text => json?_export text e h, ?_, ?_⟩
  · intro key name hkey front back hback shorthand text outer comma
    refine ⟨_, by rw [Expr.export], ?_⟩
    rw [get?_exportFields_field hkey front back hback]
    exact json?_export text e h
  · intro front values back others hfront hback text comma
    have hitem : literalItems? (e :: back) = some (value :: others) := by
      rw [literalItems?, h, hback]
      rfl
    refine json?_export text _ ?_
    rw [Expr.literal?, literalItems?_append hfront hitem]
    rfl

/-- An object in which a name stands twice, with a number as another name. -/
def repeating : Expr :=
  .object
    [.field (.string "b") (.paren "'x'" (.string "x")) false "('x')",
      .field (.number (.ofNat 1)) .null false "null",
      .field (.name "b") (.array [.bool true, .unary .minus (.number (.ofNat 2))] false) false
        "[true, -2]"]
    false

/-- What the object means. -/
def repeatingValue : Json :=
  .object [("b", .array [.bool true, .integer (-2)]), ("1", .null)]

/-- The object as an export, between two entries of which one is no constant, and in an array. -/
theorem readers_agree_repeating :
    repeating.literal? = some repeatingValue ∧
      (repeating.export "").json? = some repeatingValue ∧
      (∃ entries,
        (Expr.object [.spread .this, .field (.name "k") repeating false "",
          .field (.name "f") (.name "run") false "run"] false).export "" = .object entries ∧
        (Entries.get? entries "k").bind Export.json? = some repeatingValue) ∧
      ((Expr.array [.null, repeating] false).export "").json? =
        some (.array [.null, repeatingValue]) := by
  have h : repeating.literal? = some repeatingValue := by decide +kernel
  obtain ⟨hexport, hentry, hitem⟩ := readers_agree h
  exact ⟨h, hexport "",
    hentry (.name "k") "k" rfl [.spread .this] [.field (.name "f") (.name "run") false "run"]
      (by decide) false "" "" false,
    hitem [.null] [.null] [] [] rfl rfl "" false⟩

end Collector
