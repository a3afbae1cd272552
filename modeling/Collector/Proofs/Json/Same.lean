import Collector.Json.Value
import Collector.Proofs.Entries
import Mathlib.Data.List.Perm.Subperm

/-!
# Equality of JSON values

`Json.same` does not look at the order of fields, so it is not equality of terms.

* `Json.WellFormed` are the values that a text can hold: no object has two fields of one name, and
  every double is a number.
* `identical_iff` decides equality of terms.
* `same_refl` and `same_symm`: every value equals itself, and either of two equal ones the other.
* `same_object_iff` compares objects name by name, with `SameOption` for fields that may be missing.
-/

namespace Collector

theorem Double.sameValue_symm {a b : Double} (h : a.sameValue b = true) :
    b.sameValue a = true := by
  cases a <;> cases b <;> simp only [Double.sameValue, Bool.and_eq_true, Bool.or_eq_true,
    beq_iff_eq, Bool.false_eq_true] at h ⊢
  · obtain ⟨⟨rfl, rfl⟩, hsign⟩ := h
    exact ⟨⟨rfl, rfl⟩, hsign.imp_left Eq.symm⟩
  · exact h.symm

theorem Double.sameValue_finite (negative : Bool) (mantissa : Nat) (e : Int) :
    (Double.finite negative mantissa e).sameValue (.finite negative mantissa e) = true := by
  simp [Double.sameValue]

namespace Json

/-! ## Well-formed values -/

mutual

/-- Whether no object inside has two fields of one name, and all doubles are numbers. -/
def WellFormed : Json → Prop
  | .double value => value.sameValue value = true
  | .array items => WellFormedItems items
  | .object fields => (Entries.names fields).Nodup ∧ WellFormedFields fields
  | _ => True

/-- Whether all items are well-formed. -/
def WellFormedItems : List Json → Prop
  | [] => True
  | item :: rest => item.WellFormed ∧ WellFormedItems rest

/-- Whether the values of all fields are well-formed. -/
def WellFormedFields : List (String × Json) → Prop
  | [] => True
  | (_, value) :: rest => value.WellFormed ∧ WellFormedFields rest

end

theorem wellFormedItems_iff (items : List Json) :
    WellFormedItems items ↔ ∀ item ∈ items, item.WellFormed := by
  induction items with
  | nil => simp [WellFormedItems]
  | cons item rest ih => rw [WellFormedItems, ih, List.forall_mem_cons]

theorem wellFormedFields_iff (fields : Entries Json) :
    WellFormedFields fields ↔ ∀ field ∈ fields, field.2.WellFormed := by
  induction fields with
  | nil => simp [WellFormedFields]
  | cons field rest ih => rw [WellFormedFields, ih, List.forall_mem_cons]

theorem wellFormed_object_iff (fields : Entries Json) :
    (Json.object fields).WellFormed ↔
      (Entries.names fields).Nodup ∧ ∀ field ∈ fields, field.2.WellFormed := by
  rw [WellFormed, wellFormedFields_iff]

theorem WellFormed.nodup {fields : Entries Json} (h : (Json.object fields).WellFormed) :
    (Entries.names fields).Nodup := ((wellFormed_object_iff fields).1 h).1

theorem WellFormed.field {fields : Entries Json} (h : (Json.object fields).WellFormed)
    {name : String} {value : Json} (hvalue : Entries.get? fields name = some value) :
    value.WellFormed :=
  ((wellFormed_object_iff fields).1 h).2 _ (Entries.mem_of_get? hvalue)

theorem WellFormed.put {fields : Entries Json} (h : (Json.object fields).WellFormed)
    (name : String) {value : Json} (hvalue : value.WellFormed) :
    (Json.object (Entries.put fields name value)).WellFormed := by
  obtain ⟨hnodup, hfields⟩ := (wellFormed_object_iff fields).1 h
  refine (wellFormed_object_iff _).2 ⟨Entries.nodup_put hnodup name value, fun field hfield => ?_⟩
  rcases Entries.mem_put hfield with hbefore | hnew
  · exact hfields field hbefore
  · rw [hnew]
    exact hvalue

theorem WellFormed.remove {fields : Entries Json} (h : (Json.object fields).WellFormed)
    (name : String) : (Json.object (Entries.remove fields name)).WellFormed := by
  obtain ⟨hnodup, hfields⟩ := (wellFormed_object_iff fields).1 h
  exact (wellFormed_object_iff _).2 ⟨Entries.nodup_remove hnodup name,
    fun field hfield => hfields field (List.mem_of_mem_filter hfield)⟩

theorem WellFormed.putAll {fields additions : Entries Json} (h : (Json.object fields).WellFormed)
    (hadditions : ∀ addition ∈ additions, addition.2.WellFormed) :
    (Json.object (Entries.putAll fields additions)).WellFormed := by
  obtain ⟨hnodup, hfields⟩ := (wellFormed_object_iff fields).1 h
  refine (wellFormed_object_iff _).2 ⟨Entries.nodup_putAll hnodup additions, fun field hfield => ?_⟩
  rcases Entries.mem_putAll hfield with hbefore | ⟨addition, hmem, hnew⟩
  · exact hfields field hbefore
  · rw [hnew]
    exact hadditions addition hmem

theorem wellFormed_empty : (Json.object []).WellFormed :=
  (wellFormed_object_iff []).2 ⟨List.nodup_nil, by simp⟩

theorem wellFormed_ofList {list : List (String × Json)}
    (h : ∀ entry ∈ list, entry.2.WellFormed) :
    (Json.object (Entries.ofList list)).WellFormed := wellFormed_empty.putAll h

/-! ## Induction -/

/-- Induction over values, with the items of an array and the fields of an object at hand. -/
@[elab_as_elim]
theorem induct {motive : Json → Prop} (null : motive .null) (bool : ∀ value, motive (.bool value))
    (integer : ∀ value, motive (.integer value)) (double : ∀ value, motive (.double value))
    (string : ∀ value, motive (.string value))
    (array : ∀ items, (∀ item ∈ items, motive item) → motive (.array items))
    (object : ∀ fields : Entries Json, (∀ field ∈ fields, motive field.2) → motive (.object fields))
    (a : Json) : motive a :=
  @Json.rec motive (fun items => ∀ item ∈ items, motive item)
    (fun fields => ∀ field ∈ fields, motive field.2) (fun field => motive field.2)
    null bool integer double string array object (by simp)
    (fun _ _ hitem hrest => List.forall_mem_cons.2 ⟨hitem, hrest⟩) (by simp)
    (fun _ _ hfield hrest => List.forall_mem_cons.2 ⟨hfield, hrest⟩) (fun _ _ h => h) a

/-! ## Identity -/

mutual

/-- Whether two values are the same term: the order of fields counts. -/
def identical : Json → Json → Bool
  | .null, .null => true
  | .bool a, .bool b => a == b
  | .integer a, .integer b => a == b
  | .double a, .double b => a == b
  | .string a, .string b => a == b
  | .array a, .array b => identicalItems a b
  | .object a, .object b => identicalFields a b
  | _, _ => false

/-- Whether two arrays are the same. -/
def identicalItems : List Json → List Json → Bool
  | [], [] => true
  | a :: as, b :: bs => identical a b && identicalItems as bs
  | _, _ => false

/-- Whether two lists of fields are the same. -/
def identicalFields : List (String × Json) → List (String × Json) → Bool
  | [], [] => true
  | (name, a) :: as, (other, b) :: bs => name == other && identical a b && identicalFields as bs
  | _, _ => false

end

theorem identical_iff (a b : Json) : a.identical b = true ↔ a = b := by
  induction a using induct generalizing b with
  | null => cases b <;> simp [identical]
  | bool value => cases b <;> simp [identical]
  | integer value => cases b <;> simp [identical]
  | double value => cases b <;> simp [identical]
  | string value => cases b <;> simp [identical]
  | array items ih =>
    cases b with
    | array others =>
      rw [identical, array.injEq]
      induction items generalizing others with
      | nil => cases others <;> simp [identicalItems]
      | cons item rest ihrest =>
        obtain ⟨hitem, hrest⟩ := List.forall_mem_cons.1 ih
        cases others with
        | nil => simp [identicalItems]
        | cons other others => simp [identicalItems, hitem, ihrest hrest]
    | _ => simp [identical]
  | object fields ih =>
    cases b with
    | object others =>
      rw [identical, object.injEq]
      induction fields generalizing others with
      | nil => cases others <;> simp [identicalFields]
      | cons field rest ihrest =>
        obtain ⟨name, value⟩ := field
        obtain ⟨hfield, hrest⟩ := List.forall_mem_cons.1 ih
        rcases others with _ | ⟨⟨other, found⟩, others⟩
        · simp [identicalFields]
        · simp [identicalFields, hfield, ihrest hrest]
    | _ => simp [identical]

instance : DecidableEq Json := fun a b => decidable_of_iff _ (identical_iff a b)

/-! ## Items and fields -/

theorem sameItems_iff (as bs : List Json) :
    sameItems as bs = true ↔ List.Forall₂ (fun a b => a.same b = true) as bs := by
  induction as generalizing bs with
  | nil => cases bs <;> simp [sameItems]
  | cons a as ih =>
    cases bs with
    | nil => simp [sameItems]
    | cons b bs => rw [sameItems, Bool.and_eq_true, ih, List.forall₂_cons]

theorem sameFields_iff (fields others : Entries Json) :
    sameFields fields others = true ↔
      ∀ field ∈ fields, ∃ value, Entries.get? others field.1 = some value ∧
        field.2.same value = true := by
  induction fields with
  | nil => simp [sameFields]
  | cons field rest ih =>
    rw [sameFields, Bool.and_eq_true, ih, List.forall_mem_cons]
    refine and_congr_left fun _ => ?_
    cases Entries.get? others field.1 <;> simp

theorem same_object_eq (fields others : Entries Json) :
    (Json.object fields).same (.object others) = true ↔
      fields.length = others.length ∧ ∀ field ∈ fields, ∃ value,
        Entries.get? others field.1 = some value ∧ field.2.same value = true := by
  rw [same, Bool.and_eq_true, beq_iff_eq, sameFields_iff]

/-- Names that stand once each, and among as many others, are all of these. -/
theorem names_perm {fields others : Entries Json} (hnodup : (Entries.names fields).Nodup)
    (hlength : fields.length = others.length)
    (hsubset : Entries.names fields ⊆ Entries.names others) :
    (Entries.names fields).Perm (Entries.names others) := by
  refine (List.subperm_of_subset hnodup hsubset).perm_of_length_le ?_
  simp [Entries.names, hlength]

theorem names_subset_of_same {fields others : Entries Json}
    (h : ∀ field ∈ fields, ∃ value, Entries.get? others field.1 = some value ∧
      field.2.same value = true) :
    Entries.names fields ⊆ Entries.names others := by
  intro name hname
  obtain ⟨field, hfield, rfl⟩ := List.mem_map.1 hname
  obtain ⟨value, hvalue, -⟩ := h field hfield
  exact (Entries.mem_names_iff others field.1).2 ⟨value, hvalue⟩

/-- Equality of values that may be missing. -/
abbrev SameOption (a b : Option Json) : Prop := Option.Rel (fun a b => a.same b = true) a b

/-- Objects are equal if every name stands for equal values, or for nothing, in both of them. -/
theorem same_object_iff {fields others : Entries Json} (hfields : (Entries.names fields).Nodup)
    (hothers : (Entries.names others).Nodup) :
    (Json.object fields).same (.object others) = true ↔
      ∀ name, SameOption (Entries.get? fields name) (Entries.get? others name) := by
  rw [same_object_eq]
  constructor
  · rintro ⟨hlength, hsame⟩ name
    have hperm := names_perm hfields hlength (names_subset_of_same hsame)
    cases hvalue : Entries.get? fields name with
    | none =>
      have hnone : Entries.get? others name = none := by
        rw [Entries.get?_eq_none_iff] at hvalue ⊢
        exact fun hmem => hvalue (hperm.mem_iff.2 hmem)
      rw [hnone]
      exact .none
    | some a =>
      obtain ⟨b, hb, hab⟩ := hsame _ (Entries.mem_of_get? hvalue)
      rw [hb]
      exact .some hab
  · intro h
    have hnames : ∀ name, name ∈ Entries.names fields ↔ name ∈ Entries.names others := by
      intro name
      rw [Entries.mem_names_iff, Entries.mem_names_iff]
      have hname := h name
      generalize Entries.get? fields name = value, Entries.get? others name = other at hname
      cases hname <;> simp
    refine ⟨?_, fun field hfield => ?_⟩
    · have hperm := (List.perm_ext_iff_of_nodup hfields hothers).2 hnames
      simpa [Entries.names] using hperm.length_eq
    · have hname := h field.1
      rw [Entries.get?_of_mem hfields hfield] at hname
      cases hother : Entries.get? others field.1 with
      | none =>
        rw [hother] at hname
        cases hname
      | some value =>
        rw [hother] at hname
        cases hname with
        | some hsame => exact ⟨value, rfl, hsame⟩

/-! ## Equal values -/

theorem same_refl {a : Json} (h : a.WellFormed) : a.same a = true := by
  induction a using induct with
  | null => rfl
  | bool value => exact beq_self_eq_true value
  | integer value => exact beq_self_eq_true value
  | double value => exact h
  | string value => exact beq_self_eq_true value
  | array items ih =>
    have hitems := (wellFormedItems_iff items).1 h
    exact (sameItems_iff items items).2
      (List.forall₂_same.2 fun item hitem => ih item hitem (hitems item hitem))
  | object fields ih =>
    obtain ⟨hnodup, hfields⟩ := (wellFormed_object_iff fields).1 h
    refine (same_object_eq fields fields).2 ⟨rfl, fun field hfield => ?_⟩
    exact ⟨field.2, Entries.get?_of_mem hnodup hfield, ih field hfield (hfields field hfield)⟩

theorem SameOption.of_eq {a b : Option Json} (hab : a = b)
    (h : ∀ value, a = some value → value.WellFormed) : SameOption a b := by
  subst hab
  cases a with
  | none => exact .none
  | some value => exact .some (same_refl (h value rfl))

theorem same_symm {a b : Json} (ha : a.WellFormed) (hb : b.WellFormed) (h : a.same b = true) :
    b.same a = true := by
  induction a using induct generalizing b with
  | null => cases b <;> first | rfl | cases h
  | bool value => cases b <;> simp_all [same]
  | integer value => cases b <;> simp_all [same]
  | double value =>
    cases b <;> simp_all [same]
    exact Double.sameValue_symm h
  | string value => cases b <;> simp_all [same]
  | array items ih =>
    cases b with
    | array others =>
      have hitems := (wellFormedItems_iff items).1 ha
      have hothers := (wellFormedItems_iff others).1 hb
      refine (sameItems_iff others items).2 (List.Forall₂.flip ?_)
      have hsame := (sameItems_iff items others).1 h
      clear h ha hb
      induction hsame with
      | nil => exact .nil
      | cons hfirst hrest ihrest =>
        rw [List.forall_mem_cons] at ih hitems hothers
        exact .cons (ih.1 hitems.1 hothers.1 hfirst) (ihrest ih.2 hitems.2 hothers.2)
    | _ => cases h
  | object fields ih =>
    cases b with
    | object others =>
      obtain ⟨hfields, hvalues⟩ := (wellFormed_object_iff fields).1 ha
      obtain ⟨hothers, hotherValues⟩ := (wellFormed_object_iff others).1 hb
      rw [same_object_iff hfields hothers] at h
      refine (same_object_iff hothers hfields).2 fun name => ?_
      have hname := h name
      cases hvalue : Entries.get? fields name with
      | none =>
        rw [hvalue] at hname
        cases hother : Entries.get? others name with
        | none => exact .none
        | some other =>
          rw [hother] at hname
          cases hname
      | some value =>
        rw [hvalue] at hname
        cases hother : Entries.get? others name with
        | none =>
          rw [hother] at hname
          cases hname
        | some other =>
          rw [hother] at hname
          cases hname with
          | some hsame => exact .some (ih _ (Entries.mem_of_get? hvalue) (ha.field hvalue)
              (hb.field hother) hsame)
    | _ => cases h

end Json

end Collector
