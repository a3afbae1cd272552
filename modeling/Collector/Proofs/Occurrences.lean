import Collector.Proofs.Entries
import Mathlib.Data.List.Basic

/-!
# First and last occurrences

Where items of a list repeat, some readers go by the first occurrence of each and others by the
last. Entries that are collected do both: a name keeps its first place, and its last value counts.

* `ListsFirst` says that a list names what another list holds, in the order of the first
  occurrences. `listsFirst_eraseDups` is the list that leaves out repetitions.
* `getLast?_filterMap_eq_some_iff` finds the last item that yields something.
* `Entries.listsFirst_names_ofList` and `Entries.get?_ofList_eq_getLast?` are the two for entries.
-/

namespace Collector

/-! ## First occurrences -/

/-- Whether a list names each item of `items` with a property once, in the order of their first
occurrences, and nothing else. -/
structure ListsFirst (p : String → Prop) (items listed : List String) : Prop where
  once : listed.Nodup
  mem : ∀ item, item ∈ listed ↔ item ∈ items ∧ p item
  inOrder : listed.Pairwise fun a b => items.idxOf a < items.idxOf b

/-- Items that are left out do not change which of two others comes first. -/
theorem idxOf_lt_of_filter {p : String → Bool} {items : List String} {a b : String}
    (ha : p a = true) (hb : p b = true)
    (h : (items.filter p).idxOf a < (items.filter p).idxOf b) :
    items.idxOf a < items.idxOf b := by
  induction items with
  | nil => simp at h
  | cons item rest ih =>
    by_cases hitem : p item = true
    · rw [List.filter_cons_of_pos hitem, List.idxOf_cons, List.idxOf_cons] at h
      rw [List.idxOf_cons, List.idxOf_cons]
      cases hfirst : item == a <;> cases hsecond : item == b <;> simp_all
    · have hfirst : item ≠ a := fun heq => hitem (heq ▸ ha)
      have hsecond : item ≠ b := fun heq => hitem (heq ▸ hb)
      rw [List.filter_cons_of_neg hitem] at h
      rw [List.idxOf_cons_ne rest hfirst, List.idxOf_cons_ne rest hsecond]
      exact Nat.succ_lt_succ (ih h)

theorem ListsFirst.filter {items listed : List String} {p : String → Bool}
    (h : ListsFirst (fun _ => True) (items.filter p) listed) :
    ListsFirst (fun item => p item = true) items listed where
  once := h.once
  mem item := by rw [h.mem, List.mem_filter, and_true]
  inOrder := by
    refine h.inOrder.imp_of_mem fun ha hb hlt => ?_
    exact idxOf_lt_of_filter (List.mem_filter.1 ((h.mem _).1 ha).1).2
      (List.mem_filter.1 ((h.mem _).1 hb).1).2 hlt

/-- By induction on the length: behind the first item come those that differ from it. -/
theorem listsFirst_eraseDups (items : List String) :
    ListsFirst (fun _ => True) items items.eraseDups := by
  match items with
  | [] => exact ⟨List.nodup_nil, by simp, List.Pairwise.nil⟩
  | first :: rest =>
    have hothers := (listsFirst_eraseDups (rest.filter fun item => !item == first)).filter
    rw [List.eraseDups_cons]
    have hne {item : String} (hmem : item ∈ (rest.filter fun item => !item == first).eraseDups) :
        first ≠ item := by
      rintro rfl
      simpa using ((hothers.mem first).1 hmem).2
    refine ⟨List.nodup_cons.2 ⟨fun hmem => hne hmem rfl, hothers.once⟩, fun item => ?_,
      List.pairwise_cons.2 ⟨fun item hmem => ?_, ?_⟩⟩
    · rw [List.mem_cons, List.mem_cons, hothers.mem]
      by_cases heq : item = first <;> simp [heq]
    · rw [List.idxOf_cons_self, List.idxOf_cons_ne rest (hne hmem)]
      exact Nat.succ_pos _
    · refine hothers.inOrder.imp_of_mem fun ha hb hlt => ?_
      rw [List.idxOf_cons_ne rest (hne ha), List.idxOf_cons_ne rest (hne hb)]
      exact Nat.succ_lt_succ hlt
termination_by items.length
decreasing_by exact Nat.lt_succ_of_le (List.length_filter_le _ _)

/-- What comes first is determined. -/
theorem ListsFirst.unique {p : String → Prop} {items listed others : List String}
    (h : ListsFirst p items listed) (h' : ListsFirst p items others) : listed = others := by
  have hperm : listed.Perm others :=
    (List.perm_ext_iff_of_nodup h.once h'.once).2 fun item => by rw [h.mem, h'.mem]
  exact hperm.eq_of_pairwise (fun _ _ _ _ hlt hgt => absurd hlt (Nat.lt_asymm hgt))
    h.inOrder h'.inOrder

/-! ## The last occurrence -/

theorem getLast?_filterMap_eq_some_iff {α β : Type} {f : α → Option β} {items : List α} {b : β} :
    (items.filterMap f).getLast? = some b ↔
      ∃ front a back, items = front ++ a :: back ∧ f a = some b ∧ ∀ x ∈ back, f x = none := by
  rw [List.getLast?_eq_some_iff]
  constructor
  · rintro ⟨before, h⟩
    obtain ⟨first, second, rfl, -, hsecond⟩ := List.filterMap_eq_append_iff.1 h
    obtain ⟨front, a, back, rfl, -, ha, hback⟩ := List.filterMap_eq_cons_iff.1 hsecond
    exact ⟨first ++ front, a, back, by rw [List.append_assoc], ha,
      List.filterMap_eq_nil_iff.1 hback⟩
  · rintro ⟨front, a, back, rfl, ha, hback⟩
    refine ⟨front.filterMap f, ?_⟩
    rw [List.filterMap_append, List.filterMap_cons_some ha, List.filterMap_eq_nil_iff.2 hback]

/-! ## Entries -/

namespace Entries

variable {α : Type}

theorem names_ofList (list : List (String × α)) :
    names (ofList list) = (names list).eraseDups := by
  unfold ofList
  induction list using List.reverseRecOn with
  | nil => rfl
  | append_singleton list entry ih =>
    have hnames : names (list ++ [entry]) = names list ++ [entry.1] := by simp [names]
    rw [putAll_append, hnames, List.eraseDups_append, ← ih]
    show names (put (putAll [] list) entry.1 entry.2) = _
    rw [names_put]
    by_cases hmem : entry.1 ∈ names list
    · have hold : entry.1 ∈ names (putAll [] list) := by
        rw [ih, (listsFirst_eraseDups _).mem]
        exact ⟨hmem, trivial⟩
      rw [if_pos hold]
      simp [List.removeAll, hmem]
    · have hnew : entry.1 ∉ names (putAll [] list) := by
        rw [ih, (listsFirst_eraseDups _).mem]
        exact fun h => hmem h.1
      rw [if_neg hnew]
      simp [List.removeAll, hmem, List.eraseDups_cons]

theorem listsFirst_names_ofList (list : List (String × α)) :
    ListsFirst (fun _ => True) (names list) (names (ofList list)) := by
  rw [names_ofList]
  exact listsFirst_eraseDups _

theorem get?_ofList_eq_getLast? (list : List (String × α)) (key : String) :
    get? (ofList list) key =
      (list.filterMap fun entry => if entry.1 = key then some entry.2 else none).getLast? := by
  unfold ofList
  induction list using List.reverseRecOn with
  | nil => rfl
  | append_singleton list entry ih =>
    rw [putAll_append, List.filterMap_append]
    show get? (put (putAll [] list) entry.1 entry.2) key = _
    rw [get?_put, ih, List.filterMap_cons, List.filterMap_nil]
    by_cases hkey : entry.1 = key
    · rw [if_pos hkey.symm, if_pos hkey, List.getLast?_append]
      rfl
    · rw [if_neg (Ne.symm hkey), if_neg hkey, List.append_nil]

/-- Entries with the same names in the same order, and the same value under each, are the same. -/
theorem eq_of_names_of_get? {entries others : Entries α} (hnodup : (names entries).Nodup)
    (hnames : names entries = names others)
    (hget : ∀ key, get? entries key = get? others key) : entries = others := by
  have hpair (list : Entries α) (hlist : (names list).Nodup) :
      list.map (fun entry => (entry.1, some entry.2)) =
        (names list).map fun key => (key, get? list key) := by
    rw [names, List.map_map]
    refine List.map_congr_left fun entry hentry => ?_
    rw [Function.comp_apply, get?_of_mem hlist hentry]
  have hinj : Function.Injective fun entry : String × α => (entry.1, some entry.2) := by
    rintro ⟨key, value⟩ ⟨other, value'⟩ h
    simpa using h
  refine hinj.list_map ?_
  rw [hpair entries hnodup, hpair others (hnames ▸ hnodup), hnames]
  exact List.map_congr_left fun key _ => by rw [hget]

end Entries

end Collector
