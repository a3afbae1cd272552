import Collector.Proofs.Entries

/-!
# Lists of keys

What a list of keys becomes when entries are written: nothing is lost or moved, and the new keys
stand behind the old ones.
-/

namespace Collector

/-- Whether a list of keys goes on another one: behind it stand new keys only, all of them
`allowed`. -/
def Extends (allowed before after : List String) : Prop :=
  ∃ new, after = before ++ new ∧ ∀ key ∈ new, key ∈ allowed ∧ key ∉ before

namespace Extends

variable {allowed before after : List String}

theorem refl (keys : List String) : Extends [] keys keys :=
  ⟨[], (List.append_nil keys).symm, fun _ hkey => absurd hkey List.not_mem_nil⟩

theorem mono {others : List String} (h : Extends allowed before after)
    (hsubset : allowed ⊆ others) : Extends others before after := by
  obtain ⟨new, hafter, hnew⟩ := h
  exact ⟨new, hafter, fun key hkey => ⟨hsubset (hnew key hkey).1, (hnew key hkey).2⟩⟩

theorem trans {others last : List String} (h : Extends allowed before after)
    (h' : Extends others after last) : Extends (allowed ++ others) before last := by
  obtain ⟨new, rfl, hnew⟩ := h
  obtain ⟨more, rfl, hmore⟩ := h'
  refine ⟨new ++ more, List.append_assoc _ _ _, fun key hkey => ?_⟩
  rcases List.mem_append.1 hkey with hkey | hkey
  · exact ⟨List.mem_append_left _ (hnew key hkey).1, (hnew key hkey).2⟩
  · obtain ⟨hallowed, hfresh⟩ := hmore key hkey
    exact ⟨List.mem_append_right _ hallowed, fun hin => hfresh (List.mem_append_left _ hin)⟩

/-- Of the keys that are looked at, the new ones still come last. -/
theorem filter (h : Extends allowed before after) (p : String → Bool) :
    Extends (allowed.filter p) (before.filter p) (after.filter p) := by
  obtain ⟨new, rfl, hnew⟩ := h
  refine ⟨new.filter p, List.filter_append _ _, fun key hkey => ?_⟩
  obtain ⟨hmem, hp⟩ := List.mem_filter.1 hkey
  exact ⟨List.mem_filter.2 ⟨(hnew key hmem).1, hp⟩,
    fun hin => (hnew key hmem).2 (List.mem_filter.1 hin).1⟩

theorem mem (h : Extends allowed before after) {key : String} (hkey : key ∈ after) :
    key ∈ before ∨ key ∈ allowed := by
  obtain ⟨new, rfl, hnew⟩ := h
  exact (List.mem_append.1 hkey).imp_right fun hmem => (hnew key hmem).1

end Extends

/-! ## Entries -/

namespace Entries

variable {α : Type}

theorem extends_put (entries : Entries α) (key : String) (value : α) :
    Extends [key] (names entries) (names (put entries key value)) := by
  rw [names_put]
  split
  · exact (Extends.refl _).mono (List.nil_subset _)
  · rename_i hkey
    refine ⟨[key], rfl, fun name hname => ⟨hname, ?_⟩⟩
    rwa [List.mem_singleton.1 hname]

theorem extends_putAll (entries additions : Entries α) :
    Extends (names additions) (names entries) (names (putAll entries additions)) := by
  induction additions using List.reverseRecOn with
  | nil => exact Extends.refl _
  | append_singleton additions entry ih =>
    rw [putAll_append]
    have hnames : names (additions ++ [entry]) = names additions ++ [entry.1] := by
      simp [names]
    rw [hnames]
    exact ih.trans (extends_put _ entry.1 entry.2)

/-- Only names that are written stand in what is collected. -/
theorem mem_of_mem_names_ofList {list : List (String × α)} {key : String}
    (h : key ∈ names (ofList list)) : key ∈ names list :=
  ((extends_putAll [] list).mem h).resolve_left List.not_mem_nil

/-- A key that is removed does not count among the others. -/
theorem filter_names_remove (entries : Entries α) {key : String} {p : String → Bool}
    (h : p key = false) : (names (remove entries key)).filter p = (names entries).filter p := by
  unfold names remove
  rw [List.filter_map, List.filter_map, List.filter_filter]
  congr 1
  refine List.filter_congr fun entry _ => ?_
  by_cases hentry : entry.1 = key
  · simp [hentry, h]
  · simp [hentry]

end Entries

end Collector
