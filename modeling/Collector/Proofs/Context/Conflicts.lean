import Collector.Proofs.Context.Schema
import Collector.Proofs.Text.ByteOrder

/-!
# Conflicts between schemas

Two schemas conflict in the names that both of them define, and define differently.

* `mem_conflicts_iff` says which names are looked at, `Disagree`.
* `leastName?_eq_some_iff` says which of several names is reported: the first one in the order of
  bytes.
* `checkConflicts_congr` says that nothing else counts, and `disagree_comm`, `Disagree.of_perm` and
  `SharedAlike.disagree_iff` say what leaves the disagreements as they are.

The parts are put together in `conflict_check_exact`.
-/

namespace Collector

/-- Whether two definitions are equal in all that has to be shared. -/
structure Variable.SameDefinition (v w : Variable) : Prop where
  description : v.description = w.description
  required : v.required = w.required
  default : Json.SameOption v.default w.default

namespace Variable

theorem sameDefinition_iff (v w : Variable) : v.SameDefinition w ↔ v.agrees w = true := by
  rw [agrees_iff]
  exact ⟨fun h => ⟨h.description, h.required, h.default⟩, fun ⟨hd, hr, hv⟩ => ⟨hd, hr, hv⟩⟩

theorem SameDefinition.symm {v w : Variable} (hv : v.WellFormed) (hw : w.WellFormed)
    (h : v.SameDefinition w) : w.SameDefinition v where
  description := h.description.symm
  required := h.required.symm
  default := by
    have hdefault := h.default
    have hleft := hv.default
    have hright := hw.default
    generalize v.default = a, w.default = b at hdefault hleft hright
    cases hdefault with
    | none => exact .none
    | some hsame => exact .some (Json.same_symm (hleft _ rfl) (hright _ rfl) hsame)

end Variable

namespace Schema

/-! ## The names that are looked at -/

/-- Whether a name is defined by two schemas, and not in the same way. -/
def Disagree (a b : Schema) (name : String) : Prop :=
  ∃ v w, Entries.get? a name = some v ∧ Entries.get? b name = some w ∧ ¬v.SameDefinition w

theorem mem_conflicts_iff {a : Schema} (ha : a.WellFormed) (b : Schema) (name : String) :
    name ∈ conflicts a b ↔ Disagree a b name := by
  unfold conflicts Entries.names
  rw [List.mem_map]
  constructor
  · rintro ⟨⟨found, v⟩, hentry, rfl⟩
    obtain ⟨hmem, hdiffers⟩ := List.mem_filter.1 hentry
    cases hget : Entries.get? b found with
    | none => simp [hget] at hdiffers
    | some w =>
      refine ⟨v, w, Entries.get?_of_mem ha.nodup hmem, hget, ?_⟩
      rw [Variable.sameDefinition_iff]
      simpa [hget] using hdiffers
  · rintro ⟨v, w, hv, hw, hdiffers⟩
    rw [Variable.sameDefinition_iff] at hdiffers
    refine ⟨(name, v), List.mem_filter.2 ⟨Entries.mem_of_get? hv, ?_⟩, rfl⟩
    simpa [hw] using hdiffers

/-- Which of the two schemas comes first does not matter. -/
theorem disagree_comm {a b : Schema} (ha : a.WellFormed) (hb : b.WellFormed) (name : String) :
    Disagree b a name ↔ Disagree a b name := by
  constructor
  · rintro ⟨v, w, hv, hw, hdiffers⟩
    exact ⟨w, v, hw, hv, fun hsame =>
      hdiffers (hsame.symm (ha.definition hw) (hb.definition hv))⟩
  · rintro ⟨v, w, hv, hw, hdiffers⟩
    exact ⟨w, v, hw, hv, fun hsame =>
      hdiffers (hsame.symm (hb.definition hw) (ha.definition hv))⟩

/-! ## The name that is reported -/

theorem leastName?_eq_some_iff {names : List String} {name : String} :
    leastName? names = some name ↔ name ∈ names ∧ ∀ other ∈ names, name ≤ other := by
  have hleast {name : String} (names : List String) (h : leastName? names = some name) :
      name ∈ names ∧ ∀ other ∈ names, name ≤ other := by
    induction names generalizing name with
    | nil => cases h
    | cons first rest ih =>
      unfold leastName? at h
      split at h
      · rename_i least hrest
        obtain ⟨hmem, hbound⟩ := ih hrest
        rw [Option.some_inj] at h
        split at h
        · rename_i hlt
          subst h
          exact ⟨List.mem_cons_of_mem _ hmem, List.forall_mem_cons.2 ⟨le_of_lt hlt, hbound⟩⟩
        · rename_i hnot
          subst h
          have hle : first ≤ least := not_lt.1 hnot
          exact ⟨List.mem_cons_self, List.forall_mem_cons.2 ⟨le_refl _, fun other hother =>
            le_trans hle (hbound other hother)⟩⟩
      · rename_i hnone
        cases h
        rw [leastName?_eq_none hnone]
        simp
  refine ⟨hleast names, fun ⟨hmem, hbound⟩ => ?_⟩
  cases hfound : leastName? names with
  | none =>
    rw [leastName?_eq_none hfound] at hmem
    cases hmem
  | some least =>
    obtain ⟨hleastMem, hleastBound⟩ := hleast names hfound
    rw [le_antisymm (hleastBound _ hmem) (hbound _ hleastMem)]

/-- The least of several names depends on which names there are, and on nothing else. -/
theorem leastName?_congr {names others : List String} (h : ∀ name, name ∈ names ↔ name ∈ others) :
    leastName? names = leastName? others := by
  refine Option.ext fun name => ?_
  rw [leastName?_eq_some_iff, leastName?_eq_some_iff, h name]
  exact and_congr_right fun _ => forall_congr' fun other => by rw [h other]

theorem checkConflicts_eq_ok_iff (a b : Schema) :
    checkConflicts a b = .ok () ↔ conflicts a b = [] := by
  unfold checkConflicts
  cases hleast : leastName? (conflicts a b) with
  | none => simp [leastName?_eq_none hleast]
  | some name =>
    have hmem := (leastName?_eq_some_iff.1 hleast).1
    simp [List.ne_nil_of_mem hmem]

theorem checkConflicts_eq_error_iff (a b : Schema) (e : Error) :
    checkConflicts a b = .error e ↔
      ∃ name, e = .conflictingContext name ∧ leastName? (conflicts a b) = some name := by
  unfold checkConflicts
  cases leastName? (conflicts a b) with
  | none => simp
  | some name => simp [eq_comm]

/-- The verdict depends on the disagreements and on nothing else. -/
theorem checkConflicts_congr {a b c d : Schema} (ha : a.WellFormed) (hc : c.WellFormed)
    (h : ∀ name, Disagree a b name ↔ Disagree c d name) :
    checkConflicts a b = checkConflicts c d := by
  unfold checkConflicts
  rw [leastName?_congr fun name => ?_]
  rw [mem_conflicts_iff ha, mem_conflicts_iff hc, h]

/-! ## Changes that do not matter -/

theorem WellFormed.of_perm {a b : Schema} (h : a.Perm b) (ha : a.WellFormed) : b.WellFormed where
  nodup := (h.map Prod.fst).nodup_iff.1 ha.nodup
  wellFormed entry hentry := ha.wellFormed entry (h.mem_iff.2 hentry)

theorem get?_of_perm {a b : Schema} (h : a.Perm b) (ha : a.WellFormed) (name : String) :
    Entries.get? b name = Entries.get? a name := by
  have hnodup := (ha.of_perm h).nodup
  refine Option.ext fun v => ⟨fun hv => ?_, fun hv => ?_⟩
  · exact Entries.get?_of_mem ha.nodup (h.mem_iff.2 (Entries.mem_of_get? hv))
  · exact Entries.get?_of_mem hnodup (h.mem_iff.1 (Entries.mem_of_get? hv))

/-- What two schemas share is left alone: the same names are defined by both, and `description`,
`required` and `default` of these are as before. Anything may happen to `encrypted`, to the fields
without a meaning, to the variables that only one of them defines, and to the order. -/
structure SharedAlike (a b a' b' : Schema) : Prop where
  shared : ∀ name, name ∈ Entries.names a' ∧ name ∈ Entries.names b' ↔
    name ∈ Entries.names a ∧ name ∈ Entries.names b
  left : ∀ name v v', name ∈ Entries.names b → Entries.get? a name = some v →
    Entries.get? a' name = some v' →
      v'.description = v.description ∧ v'.required = v.required ∧ v'.default = v.default
  right : ∀ name w w', name ∈ Entries.names a → Entries.get? b name = some w →
    Entries.get? b' name = some w' →
      w'.description = w.description ∧ w'.required = w.required ∧ w'.default = w.default

/-- Where both define a name, both did so before, and the definitions agree now if they did then. -/
theorem SharedAlike.sameDefinition_iff {a b a' b' : Schema} (h : SharedAlike a b a' b')
    {name : String} {v w v' w' : Variable} (hv : Entries.get? a name = some v)
    (hw : Entries.get? b name = some w) (hv' : Entries.get? a' name = some v')
    (hw' : Entries.get? b' name = some w') : v'.SameDefinition w' ↔ v.SameDefinition w := by
  obtain ⟨hvd, hvr, hvv⟩ :=
    h.left name v v' ((Entries.mem_names_iff b name).2 ⟨w, hw⟩) hv hv'
  obtain ⟨hwd, hwr, hwv⟩ :=
    h.right name w w' ((Entries.mem_names_iff a name).2 ⟨v, hv⟩) hw hw'
  rw [Variable.sameDefinition_iff, Variable.sameDefinition_iff, Variable.agrees_iff,
    Variable.agrees_iff, hvd, hvr, hvv, hwd, hwr, hwv]

theorem SharedAlike.disagree_iff {a b a' b' : Schema} (h : SharedAlike a b a' b')
    (name : String) : Disagree a' b' name ↔ Disagree a b name := by
  have hshared := h.shared name
  simp only [Entries.mem_names_iff] at hshared
  constructor
  · rintro ⟨v', w', hv', hw', hdiffers⟩
    obtain ⟨⟨v, hv⟩, w, hw⟩ := hshared.1 ⟨⟨v', hv'⟩, w', hw'⟩
    exact ⟨v, w, hv, hw, fun hsame =>
      hdiffers ((h.sameDefinition_iff hv hw hv' hw').2 hsame)⟩
  · rintro ⟨v, w, hv, hw, hdiffers⟩
    obtain ⟨⟨v', hv'⟩, w', hw'⟩ := hshared.2 ⟨⟨v, hv⟩, w, hw⟩
    exact ⟨v', w', hv', hw', fun hsame =>
      hdiffers ((h.sameDefinition_iff hv hw hv' hw').1 hsame)⟩

/-! ## The check -/

/-- The check for conflicts succeeds if all shared definitions are equal, and otherwise reports the
first name in the order of bytes for which they are not. The answer stays the same where the
schemas change places, where their variables are put in another order, and where anything else is
changed than the fields that count of the variables that both of them define. -/
theorem conflict_check_exact {a b : Schema} (ha : a.WellFormed) (hb : b.WellFormed) :
    (checkConflicts a b = .ok () ↔ ∀ name v w, Entries.get? a name = some v →
      Entries.get? b name = some w → v.SameDefinition w) ∧
    (∀ e, checkConflicts a b = .error e ↔ ∃ name, e = .conflictingContext name ∧
      Disagree a b name ∧ ∀ other, Disagree a b other → other ≠ name →
        Text.bytes name < Text.bytes other) ∧
    checkConflicts b a = checkConflicts a b ∧
    (∀ a' b', a.Perm a' → b.Perm b' → checkConflicts a' b' = checkConflicts a b) ∧
    (∀ a' b' : Schema, a'.WellFormed → b'.WellFormed → SharedAlike a b a' b' →
      checkConflicts a' b' = checkConflicts a b) := by
  refine ⟨?_, fun e => ?_, ?_, fun a' b' hperm hperm' => ?_, fun a' b' ha' _ halike => ?_⟩
  · rw [checkConflicts_eq_ok_iff, List.eq_nil_iff_forall_not_mem]
    simp only [mem_conflicts_iff ha]
    constructor
    · intro hnone name v w hv hw
      by_contra hdiffers
      exact hnone name ⟨v, w, hv, hw, hdiffers⟩
    · rintro hsame name ⟨v, w, hv, hw, hdiffers⟩
      exact hdiffers (hsame name v w hv hw)
  · rw [checkConflicts_eq_error_iff]
    simp only [leastName?_eq_some_iff, mem_conflicts_iff ha, Text.bytes_lt_iff]
    refine exists_congr fun name => and_congr_right fun _ => and_congr_right fun _ => ?_
    refine forall_congr' fun other => imp_congr_right fun _ => ?_
    constructor
    · intro hle hne
      exact lt_of_le_of_ne hle (Ne.symm hne)
    · intro hlt
      by_cases heq : other = name
      · exact le_of_eq heq.symm
      · exact le_of_lt (hlt heq)
  · exact checkConflicts_congr hb ha (disagree_comm ha hb)
  · refine checkConflicts_congr (ha.of_perm hperm) ha fun name => ?_
    unfold Disagree
    rw [get?_of_perm hperm ha, get?_of_perm hperm' hb]
  · exact checkConflicts_congr ha' ha halike.disagree_iff

/-- A schema with the given descriptions and nothing else. -/
def described (texts : Entries String) : Schema := Entries.mapValues Variable.ofDescription texts

theorem described_wellFormed {texts : Entries String} (h : (Entries.names texts).Nodup) :
    (described texts).WellFormed where
  nodup := by
    unfold described
    rw [Entries.names_mapValues]
    exact h
  wellFormed entry hentry := by
    obtain ⟨text, -, rfl⟩ := List.mem_map.1 hentry
    refine ⟨fun value hvalue => ?_, Json.wellFormed_empty⟩
    cases hvalue

theorem conflict_check_exact_twice :
    let a := described [("url", "The address"), ("key", "The key"), ("zone", "The zone")]
    let b := described [("key", "The token"), ("url", "The host")]
    a.WellFormed ∧ b.WellFormed ∧ Disagree a b "key" ∧ ¬Disagree a b "zone" ∧
      checkConflicts a b = .error (.conflictingContext "key") ∧
      checkConflicts b a = .error (.conflictingContext "key") := by
  intro a b
  have ha : a.WellFormed := described_wellFormed (by decide)
  have hb : b.WellFormed := described_wellFormed (by decide)
  obtain ⟨-, herror, hcomm, -⟩ := conflict_check_exact ha hb
  have hreport : checkConflicts a b = .error (.conflictingContext "key") := by decide +kernel
  obtain ⟨name, hname, hdisagree, -⟩ := (herror _).1 hreport
  cases hname
  refine ⟨ha, hb, hdisagree, ?_, hreport, hcomm.trans hreport⟩
  rintro ⟨v, w, -, hw, -⟩
  cases hw

end Schema

end Collector
