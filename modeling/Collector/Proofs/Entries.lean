import Collector.Entries
import Mathlib.Data.List.Induction

/-!
# Looking up entries

What a name stands for behind each of the operations on entries. None of the lemmas asks that
names are distinct: a look-up finds the first value under a name, a new value takes its place,
and removing takes away all of them.
-/

namespace Collector.Entries

variable {α β : Type}

@[simp] theorem get?_nil (key : String) : get? ([] : Entries α) key = none := rfl

theorem get?_cons (name : String) (value : α) (rest : Entries α) (key : String) :
    get? ((name, value) :: rest) key = if name = key then some value else get? rest key := rfl

/-! ## Writing and removing one name -/

@[simp] theorem get?_put_self (entries : Entries α) (key : String) (value : α) :
    get? (put entries key value) key = some value := by
  induction entries with
  | nil => simp [put, get?]
  | cons entry rest ih =>
    unfold put
    by_cases h : entry.1 = key
    · simp [h, get?]
    · simp [h, get?, ih]

theorem get?_put_of_ne (entries : Entries α) {key other : String} (value : α)
    (h : other ≠ key) : get? (put entries key value) other = get? entries other := by
  induction entries with
  | nil => simp [put, get?, h.symm]
  | cons entry rest ih =>
    unfold put
    by_cases hkey : entry.1 = key
    · have hother : entry.1 ≠ other := fun e => h (e.symm.trans hkey)
      simp [hkey, get?, h.symm]
    · simp [hkey, get?, ih]

theorem get?_put (entries : Entries α) (key other : String) (value : α) :
    get? (put entries key value) other =
      if other = key then some value else get? entries other := by
  by_cases h : other = key
  · rw [h, get?_put_self, if_pos rfl]
  · rw [get?_put_of_ne entries value h, if_neg h]

theorem get?_remove (entries : Entries α) (key other : String) :
    get? (remove entries key) other = if other = key then none else get? entries other := by
  unfold remove
  induction entries with
  | nil => simp
  | cons entry rest ih =>
    by_cases hkey : entry.1 = key
    · rw [List.filter_cons_of_neg (by simp [hkey]), ih, get?_cons]
      by_cases hother : other = key
      · simp [hother]
      · have hentry : entry.1 ≠ other := fun e => hother (e.symm.trans hkey)
        rw [if_neg hother, if_neg hother, if_neg hentry]
    · rw [List.filter_cons_of_pos (by simp [hkey]), get?_cons, get?_cons, ih]
      by_cases hother : other = key
      · simp [hother, hkey]
      · simp [hother]

/-! ## Writing many names -/

theorem putAll_append (entries first second : Entries α) :
    putAll entries (first ++ second) = putAll (putAll entries first) second :=
  List.foldl_append

/-- What is written at last wins, and what is not written at all stays. -/
theorem get?_putAll (entries additions : Entries α) (key : String) :
    get? (putAll entries additions) key =
      (get? (ofList additions) key).or (get? entries key) := by
  unfold ofList
  induction additions using List.reverseRecOn with
  | nil => rfl
  | append_singleton additions entry ih =>
    rw [putAll_append, putAll_append]
    show get? (put _ entry.1 entry.2) key = (get? (put _ entry.1 entry.2) key).or _
    rw [get?_put, get?_put]
    split
    · rfl
    · exact ih

theorem get?_mapValues (f : α → β) (entries : Entries α) (key : String) :
    get? (mapValues f entries) key = (get? entries key).map f := by
  induction entries with
  | nil => rfl
  | cons entry rest ih =>
    show get? ((entry.1, f entry.2) :: mapValues f rest) key = _
    rw [get?_cons, get?_cons, ih]
    split <;> rfl

theorem mapValues_put (f : α → β) (entries : Entries α) (key : String) (value : α) :
    mapValues f (put entries key value) = put (mapValues f entries) key (f value) := by
  induction entries with
  | nil => rfl
  | cons entry rest ih =>
    unfold put
    show _ = if entry.1 = key then _ else _
    split
    · rfl
    · exact congrArg ((entry.1, f entry.2) :: ·) ih

theorem mapValues_ofList (f : α → β) (list : Entries α) :
    mapValues f (ofList list) = ofList (mapValues f list) := by
  unfold ofList
  induction list using List.reverseRecOn with
  | nil => rfl
  | append_singleton list entry ih =>
    have hmap : mapValues f (list ++ [entry]) = mapValues f list ++ [(entry.1, f entry.2)] := by
      simp [mapValues]
    rw [hmap, putAll_append, putAll_append]
    show mapValues f (put _ entry.1 entry.2) = put _ entry.1 (f entry.2)
    rw [mapValues_put, ih]

/-! ## Names -/

@[simp] theorem names_nil : names ([] : Entries α) = [] := rfl

@[simp] theorem names_cons (entry : String × α) (rest : Entries α) :
    names (entry :: rest) = entry.1 :: names rest := rfl

@[simp] theorem names_mapValues (f : α → β) (entries : Entries α) :
    names (mapValues f entries) = names entries := by
  simp [names, mapValues, Function.comp_def]

theorem get?_eq_none_iff (entries : Entries α) (key : String) :
    get? entries key = none ↔ key ∉ names entries := by
  induction entries with
  | nil => simp
  | cons entry rest ih =>
    rw [get?_cons, names_cons, List.mem_cons, not_or]
    by_cases h : entry.1 = key
    · simp [h]
    · simp [h, ih, Ne.symm h]

theorem mem_names_iff (entries : Entries α) (key : String) :
    key ∈ names entries ↔ ∃ value, get? entries key = some value := by
  rw [← Option.isSome_iff_exists, Option.isSome_iff_ne_none, ne_eq, get?_eq_none_iff, not_not]

theorem mem_of_get? {entries : Entries α} {key : String} {value : α}
    (h : get? entries key = some value) : (key, value) ∈ entries := by
  induction entries with
  | nil => cases h
  | cons entry rest ih =>
    rw [get?_cons] at h
    by_cases hkey : entry.1 = key
    · rw [if_pos hkey] at h
      obtain rfl := Option.some.inj h
      rw [← hkey]
      exact List.mem_cons_self
    · rw [if_neg hkey] at h
      exact List.mem_cons_of_mem _ (ih h)

theorem get?_of_mem {entries : Entries α} (hnodup : (names entries).Nodup) {entry : String × α}
    (h : entry ∈ entries) : get? entries entry.1 = some entry.2 := by
  induction entries with
  | nil => cases h
  | cons first rest ih =>
    obtain ⟨hfirst, hrest⟩ := List.nodup_cons.1 hnodup
    rw [get?_cons]
    rcases List.mem_cons.1 h with rfl | hmem
    · rw [if_pos rfl]
    · have hne : first.1 ≠ entry.1 := by
        intro heq
        rw [heq] at hfirst
        exact hfirst (List.mem_map_of_mem hmem)
      rw [if_neg hne, ih hrest hmem]

theorem names_put (entries : Entries α) (key : String) (value : α) :
    names (put entries key value) =
      if key ∈ names entries then names entries else names entries ++ [key] := by
  induction entries with
  | nil => simp [put]
  | cons entry rest ih =>
    unfold put
    by_cases h : entry.1 = key
    · simp [h]
    · rw [if_neg h, names_cons, names_cons, ih]
      by_cases hrest : key ∈ names rest
      · simp [hrest]
      · simp [hrest, Ne.symm h]

theorem nodup_put {entries : Entries α} (h : (names entries).Nodup) (key : String) (value : α) :
    (names (put entries key value)).Nodup := by
  rw [names_put]
  split
  · exact h
  · rename_i hkey
    exact List.nodup_append.2 ⟨h, by simp, by
      rintro a ha b hb rfl
      rw [List.mem_singleton] at hb
      exact hkey (hb ▸ ha)⟩

theorem nodup_remove {entries : Entries α} (h : (names entries).Nodup) (key : String) :
    (names (remove entries key)).Nodup :=
  h.sublist (List.filter_sublist.map Prod.fst)

theorem nodup_putAll {entries : Entries α} (h : (names entries).Nodup) (additions : Entries α) :
    (names (putAll entries additions)).Nodup := by
  induction additions using List.reverseRecOn with
  | nil => exact h
  | append_singleton additions entry ih =>
    rw [putAll_append]
    exact nodup_put ih entry.1 entry.2

theorem nodup_ofList (list : List (String × α)) : (names (ofList list)).Nodup := by
  have hnil : (names ([] : Entries α)).Nodup := List.nodup_nil
  exact nodup_putAll hnil list

theorem put_of_notMem {entries : Entries α} {key : String} (h : key ∉ names entries) (value : α) :
    put entries key value = entries ++ [(key, value)] := by
  induction entries with
  | nil => rfl
  | cons entry rest ih =>
    rw [names_cons, List.mem_cons, not_or] at h
    unfold put
    rw [if_neg (Ne.symm h.1), ih h.2]
    rfl

/-- A list in which each name stands once is collected as it is. -/
theorem ofList_of_nodup {list : List (String × α)} (h : (names list).Nodup) :
    ofList list = list := by
  unfold ofList
  induction list using List.reverseRecOn with
  | nil => rfl
  | append_singleton list entry ih =>
    have hsplit : (names list ++ [entry.1]).Nodup := by
      simpa [names] using h
    obtain ⟨hlist, -, hdisjoint⟩ := List.nodup_append.1 hsplit
    rw [putAll_append, ih hlist]
    exact put_of_notMem (fun hmem => hdisjoint _ hmem _ List.mem_cons_self rfl) entry.2

theorem get?_append (first second : Entries α) (key : String) :
    get? (first ++ second) key = (get? first key).or (get? second key) := by
  induction first with
  | nil => rfl
  | cons entry rest ih =>
    rw [List.cons_append, get?_cons, get?_cons, ih]
    split <;> rfl

/-- What the later of two lists says of a name counts. -/
theorem get?_ofList_append (first second : List (String × α)) (key : String) :
    get? (ofList (first ++ second)) key =
      (get? (ofList second) key).or (get? (ofList first) key) := by
  show get? (putAll [] (first ++ second)) key = _
  rw [putAll_append, get?_putAll]
  rfl

theorem mem_put {entries : Entries α} {key : String} {value : α} {entry : String × α}
    (h : entry ∈ put entries key value) : entry ∈ entries ∨ entry.2 = value := by
  induction entries with
  | nil =>
    rw [put, List.mem_singleton] at h
    exact .inr (congrArg Prod.snd h)
  | cons first rest ih =>
    unfold put at h
    split at h
    · rcases List.mem_cons.1 h with rfl | hmem
      · exact .inr rfl
      · exact .inl (List.mem_cons_of_mem _ hmem)
    · rcases List.mem_cons.1 h with rfl | hmem
      · exact .inl List.mem_cons_self
      · exact (ih hmem).imp_left (List.mem_cons_of_mem _)

/-- A value that is there after a run of writes was there before or has been written. -/
theorem mem_putAll {entries additions : Entries α} {entry : String × α}
    (h : entry ∈ putAll entries additions) :
    entry ∈ entries ∨ ∃ addition ∈ additions, entry.2 = addition.2 := by
  induction additions using List.reverseRecOn with
  | nil => exact .inl h
  | append_singleton additions last ih =>
    rw [putAll_append] at h
    rcases mem_put h with hbefore | hlast
    · refine (ih hbefore).imp_right ?_
      rintro ⟨addition, hmem, hvalue⟩
      exact ⟨addition, List.mem_append_left _ hmem, hvalue⟩
    · exact .inr ⟨last, List.mem_append_right _ List.mem_cons_self, hlast⟩

/-! ## Writing once more -/

/-- Writing what already stands there changes nothing. -/
theorem put_of_get? {entries : Entries α} {key : String} {value : α}
    (h : get? entries key = some value) : put entries key value = entries := by
  induction entries with
  | nil => cases h
  | cons entry rest ih =>
    rw [get?_cons] at h
    unfold put
    by_cases hkey : entry.1 = key
    · rw [if_pos hkey] at h ⊢
      obtain rfl := Option.some.inj h
      rfl
    · rw [if_neg hkey] at h ⊢
      rw [ih h]

theorem put_put (entries : Entries α) (key : String) (first second : α) :
    put (put entries key first) key second = put entries key second := by
  induction entries with
  | nil => simp [put]
  | cons entry rest ih =>
    by_cases h : entry.1 = key
    · simp [put, h]
    · simp [put, h, ih]

/-- A value that takes the place of an old one may be written before another or behind it. -/
theorem put_comm {entries : Entries α} {key other : String} (hkey : key ∈ names entries)
    (hne : key ≠ other) (value new : α) :
    put (put entries other new) key value = put (put entries key value) other new := by
  induction entries with
  | nil => cases hkey
  | cons entry rest ih =>
    by_cases h : entry.1 = key
    · have hother : entry.1 ≠ other := fun e => hne (h.symm.trans e)
      simp [put, h, hne]
    · have hrest : key ∈ names rest := by
        rw [names_cons, List.mem_cons] at hkey
        exact hkey.resolve_left (Ne.symm h)
      by_cases hother : entry.1 = other
      · simp [put, hother, Ne.symm hne]
      · simp [put, h, hother, ih hrest]

theorem mem_names_put_self (entries : Entries α) (key : String) (value : α) :
    key ∈ names (put entries key value) :=
  (mem_names_iff _ _).2 ⟨value, get?_put_self entries key value⟩

theorem mem_names_put {entries : Entries α} {key : String} (h : key ∈ names entries)
    (other : String) (value : α) : key ∈ names (put entries other value) := by
  rw [names_put]
  split
  · exact h
  · exact List.mem_append_left _ h

theorem mem_names_putAll (entries additions : Entries α) {key : String}
    (h : key ∈ names entries ∨ key ∈ names additions) : key ∈ names (putAll entries additions) := by
  induction additions using List.reverseRecOn with
  | nil => exact h.resolve_right List.not_mem_nil
  | append_singleton additions entry ih =>
    rw [putAll_append]
    by_cases hlast : key = entry.1
    · rw [hlast]
      exact mem_names_put_self _ _ _
    · refine mem_names_put (ih ?_) _ _
      simpa [names, hlast] using h

/-- A run of writes over names that stand there ends with what is written at last, whether the
name has been written before the run or not. -/
theorem put_putAll_put {entries additions : Entries α}
    (h : ∀ name ∈ names additions, name ∈ names entries) (key : String) (first second : α) :
    put (putAll (put entries key first) additions) key second =
      put (putAll entries additions) key second := by
  induction additions using List.reverseRecOn generalizing second with
  | nil => exact put_put entries key first second
  | append_singleton additions entry ih =>
    have hbefore (name : String) (hname : name ∈ names additions) : name ∈ names entries :=
      h name (by simpa [names] using Or.inl hname)
    have hentry : entry.1 ∈ names entries := h entry.1 (by simp [names])
    rw [putAll_append, putAll_append]
    show put (put (putAll (put entries key first) additions) entry.1 entry.2) key second =
      put (put (putAll entries additions) entry.1 entry.2) key second
    by_cases hkey : entry.1 = key
    · rw [hkey, put_put, put_put, ih hbefore]
    · rw [← put_comm (mem_names_putAll _ _ (.inl (mem_names_put hentry _ _))) hkey,
        ← put_comm (mem_names_putAll _ _ (.inl hentry)) hkey, ih hbefore]

/-- A run of writes that is made once more changes nothing. -/
theorem putAll_putAll (entries additions : Entries α) :
    putAll (putAll entries additions) additions = putAll entries additions := by
  induction additions using List.reverseRecOn with
  | nil => rfl
  | append_singleton additions entry ih =>
    rw [putAll_append entries, putAll_append _ additions [entry]]
    show put (putAll (put (putAll entries additions) entry.1 entry.2) additions) entry.1 entry.2 =
      put (putAll entries additions) entry.1 entry.2
    rw [put_putAll_put (fun name hname => mem_names_putAll _ _ (.inr hname)), ih]

theorem remove_of_notMem {entries : Entries α} {key : String} (h : key ∉ names entries) :
    remove entries key = entries := by
  refine List.filter_eq_self.2 fun entry hentry => bne_iff_ne.2 fun heq => h ?_
  rw [← heq]
  exact List.mem_map_of_mem hentry

theorem remove_append (first second : Entries α) (key : String) :
    remove (first ++ second) key = remove first key ++ remove second key :=
  List.filter_append ..

theorem put_append_of_mem {entries : Entries α} {key : String} (h : key ∈ names entries)
    (value : α) (others : Entries α) :
    put (entries ++ others) key value = put entries key value ++ others := by
  induction entries with
  | nil => cases h
  | cons entry rest ih =>
    show put (entry :: (rest ++ others)) key value = _
    unfold put
    by_cases hkey : entry.1 = key
    · rw [if_pos hkey, if_pos hkey]
      rfl
    · have hrest : key ∈ names rest := by
        rw [names_cons, List.mem_cons] at h
        exact h.resolve_left (Ne.symm hkey)
      rw [if_neg hkey, if_neg hkey, ih hrest]
      rfl

theorem put_append_of_notMem {entries : Entries α} {key : String} (h : key ∉ names entries)
    (value : α) (others : Entries α) :
    put (entries ++ others) key value = entries ++ put others key value := by
  induction entries with
  | nil => rfl
  | cons entry rest ih =>
    rw [names_cons, List.mem_cons, not_or] at h
    show (if entry.1 = key then _ else entry :: put (rest ++ others) key value) =
      entry :: (rest ++ put others key value)
    rw [if_neg (Ne.symm h.1), ih h.2]

/-- The place of a name, and what a new value for it leaves around. -/
theorem exists_put_eq {entries : Entries α} {key : String} (h : key ∈ names entries) :
    ∃ front back, ∀ value, put entries key value = front ++ (key, value) :: back := by
  induction entries with
  | nil => cases h
  | cons entry rest ih =>
    by_cases hkey : entry.1 = key
    · exact ⟨[], rest, fun value => by simp [put, hkey]⟩
    · have hrest : key ∈ names rest := by
        rw [names_cons, List.mem_cons] at h
        exact h.resolve_left (Ne.symm hkey)
      obtain ⟨front, back, heq⟩ := ih hrest
      exact ⟨entry :: front, back, fun value => by simp [put, hkey, heq]⟩

end Collector.Entries
