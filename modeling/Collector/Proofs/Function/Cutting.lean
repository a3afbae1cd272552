import Mathlib.Data.List.Sort
import Collector.Proofs.Function.Pruned
import Collector.Proofs.Function.Worklist
import Collector.Proofs.Script.Texts

/-!
# What pruning cuts out

Pruning takes the declarations that nothing reaches out of a text and leaves every other byte where
it is.

* `Reached` is the least set of declared names that decides what is kept, as statements refer to
  names.
* `Leaves` says what becomes of the text of one statement, and `foldr_deleteRange` that deleting the
  ranges of dead declarations, the last one first, comes to the same.
* `prune_cuts_unreached` is the result.
-/

namespace Collector

open Script Relation

/-! ## Names that are reached -/

/-- Whether a function of a name is declared among statements. -/
def Declares (statements : List Statement) (id : String) : Prop :=
  ∃ s ∈ statements, s.declared? = some id

/-- The least set of declared names that holds those that a statement other than a declaration
refers to, and with a name those that a declaration of it refers to. -/
inductive Reached (statements : List Statement) : String → Prop
  | root {s : Statement} {id : String} : s ∈ statements → s.declared? = none →
    id ∈ s.tree.references → Declares statements id → Reached statements id
  | behind {s : Statement} {other id : String} : Reached statements other → s ∈ statements →
    s.declared? = some other → id ∈ s.tree.references → Declares statements id →
    Reached statements id

/-- A declaration of a name that is not reached. -/
def IsDead (statements : List Statement) (s : Statement) : Prop :=
  ∃ name, s.declared? = some name ∧ ¬ Reached statements name

section Reaching

variable {statements others : List Statement} {id : String}

theorem alive_iff_reached :
    Alive (declarationLinks statements) (rootNames statements) id ↔ Reached statements id := by
  constructor
  · intro h
    induction h with
    | root hdeclared hroot =>
      obtain ⟨s, hs, hnone, hid⟩ := mem_rootNames.mp hroot
      exact .root hs hnone hid (mem_links_names.mp hdeclared)
    | link _ hlink hid hdeclared ih =>
      obtain ⟨s, hs, hsome, rfl⟩ := mem_declarationLinks.mp hlink
      exact .behind ih hs hsome hid (mem_links_names.mp hdeclared)
  · intro h
    induction h with
    | root hs hnone hid hdeclared =>
      exact .root (mem_links_names.mpr hdeclared) (mem_rootNames.mpr ⟨_, hs, hnone, hid⟩)
    | behind _ hs hsome hid hdeclared ih =>
      exact .link ih (mem_declarationLinks.mpr ⟨_, hs, hsome, rfl⟩) hid
        (mem_links_names.mpr hdeclared)

theorem mem_liveNames_iff_reached : id ∈ liveNames statements ↔ Reached statements id :=
  mem_liveNames.trans alive_iff_reached

theorem Reached.of_mem (h : Reached statements id)
    (hmem : ∀ s, s ∈ statements ↔ s ∈ others) : Reached others id := by
  have hdeclares {name : String} : Declares statements name → Declares others name :=
    fun ⟨s, hs, hname⟩ => ⟨s, (hmem s).mp hs, hname⟩
  induction h with
  | root hs hnone hid hdeclared => exact .root ((hmem _).mp hs) hnone hid (hdeclares hdeclared)
  | behind _ hs hsome hid hdeclared ih =>
    exact .behind ih ((hmem _).mp hs) hsome hid (hdeclares hdeclared)

/-- In what order statements stand does not matter. -/
theorem reached_congr (hmem : ∀ s, s ∈ statements ↔ s ∈ others) :
    Reached statements id ↔ Reached others id :=
  ⟨fun h => h.of_mem hmem, fun h => h.of_mem fun s => (hmem s).symm⟩

/-- What is kept refers to nothing that is cut out. -/
theorem reached_of_kept {s : Statement} (hs : s ∈ statements) (hkept : ¬ IsDead statements s)
    (hid : id ∈ s.tree.references) (hdeclared : Declares statements id) : Reached statements id := by
  cases hname : s.declared? with
  | none => exact .root hs hname hid hdeclared
  | some name =>
    have hreached : Reached statements name := by
      by_contra h
      exact hkept ⟨name, hname, h⟩
    exact .behind hreached hs hname hid hdeclared

end Reaching

/-! ## Texts that are left -/

/-- What is left of a statement and the text before it. -/
inductive Leaves (statements : List Statement) : Item → String → Prop
  | kept {item : Item} : ¬ IsDead statements item.statement → Leaves statements item item.source
  | cut {item : Item} : IsDead statements item.statement → Leaves statements item item.lead

theorem leaves_keptText (statements : List Statement) (item : Item) :
    Leaves statements item (keptText (liveNames statements) item) := by
  unfold keptText
  cases hname : item.statement.declared? with
  | none =>
    refine .kept fun ⟨name, hsome, _⟩ => ?_
    cases hname.symm.trans hsome
  | some name =>
    dsimp only
    by_cases h : name ∈ liveNames statements
    · rw [if_pos (by simpa using h)]
      refine .kept fun ⟨other, hother, hdead⟩ => ?_
      obtain rfl := Option.some.inj (hname.symm.trans hother)
      exact hdead (mem_liveNames_iff_reached.mp h)
    · rw [if_neg (by simpa using h)]
      exact .cut ⟨name, hname, fun hreached => h (mem_liveNames_iff_reached.mpr hreached)⟩

/-! ## Ranges of bytes -/

/-- The bytes of a text. -/
def bytes (text : String) : List UInt8 := text.toByteArray.data.toList

@[simp] theorem bytes_append (first second : String) :
    bytes (first ++ second) = bytes first ++ bytes second := by
  simp [bytes]

/-- Takes a range out. -/
def deleteRange (text : List UInt8) (range : Nat × Nat) : List UInt8 :=
  text.take range.1 ++ text.drop range.2

/-- Whether a statement declares a name that is not among live ones. -/
def isCut (live : List String) (s : Statement) : Bool :=
  s.declared?.any fun name => !live.contains name

/-- The ranges of the declarations to be cut out of items that begin at an offset. -/
def cutRanges (live : List String) : Nat → List Item → List (Nat × Nat)
  | _, [] => []
  | offset, item :: rest =>
    let start := offset + (bytes item.lead).length
    let stop := start + (bytes item.text).length
    (if isCut live item.statement then [(start, stop)] else []) ++ cutRanges live stop rest

theorem deleteRange_middle (front middle back : List UInt8) :
    deleteRange (front ++ middle ++ back) (front.length, front.length + middle.length) =
      front ++ back := by
  unfold deleteRange
  rw [← List.length_append, List.drop_left, List.append_assoc, List.take_left]

theorem keptText_eq (live : List String) (item : Item) :
    keptText live item = if isCut live item.statement then item.lead else item.source := by
  unfold keptText isCut
  cases item.statement.declared? with
  | none => rfl
  | some name => cases live.contains name <;> simp

/-- Deleting the ranges of declarations, the last one first, leaves what pruning leaves. -/
theorem foldr_deleteRange (live : List String) (items : List Item) (front back : List UInt8) :
    (cutRanges live front.length items).foldr (fun range text => deleteRange text range)
        (front ++ bytes (String.join (items.map Item.source)) ++ back) =
      front ++ bytes (String.join (items.map (keptText live))) ++ back := by
  induction items generalizing front with
  | nil => rfl
  | cons item rest ih =>
    have hbehind := ih (front ++ bytes item.lead ++ bytes item.text)
    rw [List.length_append, List.length_append] at hbehind
    have hsource : front ++ bytes (String.join ((item :: rest).map Item.source)) ++ back =
        front ++ bytes item.lead ++ bytes item.text ++
          bytes (String.join (rest.map Item.source)) ++ back := by
      simp [String.join_cons, Item.source]
    rw [cutRanges, List.foldr_append, hsource, hbehind, List.map_cons, String.join_cons,
      bytes_append, keptText_eq]
    cases isCut live item.statement with
    | true =>
      have hdelete := deleteRange_middle (front ++ bytes item.lead) (bytes item.text)
        (bytes (String.join (rest.map (keptText live))) ++ back)
      rw [List.length_append] at hdelete
      simpa using hdelete
    | false => simp [Item.source]

/-- The ranges stand in order, one behind the other, where no declaration is empty. -/
theorem pairwise_cutRanges {live : List String} {items : List Item}
    (h : ∀ item ∈ items, isCut live item.statement = true → bytes item.text ≠ []) (offset : Nat) :
    (∀ range ∈ cutRanges live offset items, offset ≤ range.1) ∧
      (cutRanges live offset items).Pairwise fun range range' => range.1 < range'.1 := by
  induction items generalizing offset with
  | nil => exact ⟨nofun, .nil⟩
  | cons item rest ih =>
    obtain ⟨hitem, hrest⟩ := List.forall_mem_cons.mp h
    let start := offset + (bytes item.lead).length
    obtain ⟨hbehind, hpairwise⟩ := ih hrest (start + (bytes item.text).length)
    rw [cutRanges]
    cases hcut : isCut live item.statement with
    | true =>
      have hlength := List.length_pos_iff.mpr (hitem hcut)
      refine ⟨fun range hrange => ?_, List.pairwise_cons.mpr ⟨fun range hrange => ?_, hpairwise⟩⟩
      · rcases List.mem_cons.mp hrange with rfl | hrange
        · exact Nat.le_add_right _ _
        · have := hbehind range hrange
          omega
      · have := hbehind range hrange
        simp only [start] at this ⊢
        omega
    | false =>
      refine ⟨fun range hrange => ?_, hpairwise⟩
      have := hbehind range hrange
      omega

/-- In whatever way the ranges are sorted from the last to the first, deleting them in turn leaves
the same. -/
theorem foldl_deleteRange {live : List String} {items : List Item}
    (h : ∀ item ∈ items, isCut live item.statement = true → bytes item.text ≠ [])
    (front back : List UInt8) {cuts : List (Nat × Nat)}
    (hperm : cuts.Perm (cutRanges live front.length items))
    (hsorted : cuts.Pairwise fun range range' => range'.1 ≤ range.1) :
    cuts.foldl deleteRange (front ++ bytes (String.join (items.map Item.source)) ++ back) =
      front ++ bytes (String.join (items.map (keptText live))) ++ back := by
  obtain ⟨-, hpairwise⟩ := pairwise_cutRanges h front.length
  have hstarts : ((cutRanges live front.length items).map Prod.fst).Nodup :=
    List.pairwise_map.mpr (hpairwise.imp Nat.ne_of_lt)
  have heq : cuts = (cutRanges live front.length items).reverse := by
    refine (hperm.trans (List.reverse_perm _).symm).eq_of_pairwise (fun a b ha hb hab hba => ?_)
      hsorted (List.pairwise_reverse.mpr (hpairwise.imp Nat.le_of_lt))
    exact List.inj_on_of_nodup_map hstarts (hperm.mem_iff.mp ha) (List.mem_reverse.mp hb)
      (Nat.le_antisymm hba hab)
  rw [heq, List.foldl_reverse, foldr_deleteRange]

theorem exists_function_of_isCut {live : List String} {s : Statement} (h : isCut live s = true) :
    ∃ d, s = .function d := by
  cases s with
  | function d => exact ⟨d, rfl⟩
  | _ => cases h

theorem bytes_source_ne_nil (d : Function) : bytes d.source ≠ [] := by
  have hbrace : bytes "\x7b" ≠ [] := by decide
  simp [Function.source, Body.block, hbrace]

/-! ## Pruned sources -/

/-- The one function of a script stands among directives. -/
theorem exists_sole {items : List Item} {f : Function}
    (h : (items.map Item.statement).filter (fun s => !s.isDirective) = [.function f]) :
    ∃ pre item post, items = pre ++ item :: post ∧ item.statement = .function f ∧
      ∀ other ∈ pre ++ post, other.statement.isDirective = true := by
  rw [List.filter_map, List.map_eq_singleton_iff] at h
  obtain ⟨item, hfilter, hitem⟩ := h
  obtain ⟨pre, post, rfl, hpre, -, hpost⟩ := List.filter_eq_cons_iff.mp hfilter
  refine ⟨pre, item, post, rfl, hitem, fun other hother => ?_⟩
  rcases List.mem_append.mp hother with hother | hother
  · simpa using hpre other hother
  · simpa using List.filter_eq_nil_iff.mp hpost other hother

theorem soleFunction_eq_ok {body : Body} {f : Function} (h : soleFunction body = .ok f) :
    body.statements = [.function f] := by
  unfold soleFunction at h
  split at h
  next hs =>
    obtain rfl := Except.ok.inj h
    exact hs
  · cases h

/-- The text of a script in which functions are changed. -/
def changedText (change : Function → String) (item : Item) : String :=
  match item.statement with
  | .function f => item.lead ++ change f
  | _ => item.source

theorem changedText_of_directive (change : Function → String) {item : Item}
    (h : item.statement.isDirective = true) : changedText change item = item.source := by
  unfold changedText
  cases hs : item.statement with
  | function f =>
    rw [hs] at h
    cases h
  | _ => rfl

/-- Among directives, changing the only function of a script leaves what stands around it. -/
theorem mapFunctions_eq {body : Body} {pre post : List Item} {item : Item} {f : Function}
    (hitems : body.items = pre ++ item :: post) (hitem : item.statement = .function f)
    (hdirectives : ∀ other ∈ pre ++ post, other.statement.isDirective = true)
    (change : Function → String) :
    body.mapFunctions change = String.join (pre.map Item.source) ++ item.lead ++ change f ++
      String.join (post.map Item.source) ++ body.tail := by
  have hmap : body.mapFunctions change =
      String.join (body.items.map (changedText change)) ++ body.tail := rfl
  have hchanged : changedText change item = item.lead ++ change f := by
    unfold changedText
    rw [hitem]
  have hsame (others : List Item) (h : ∀ other ∈ others, other ∈ pre ++ post) :
      others.map (changedText change) = others.map Item.source :=
    List.map_congr_left fun other hother =>
      changedText_of_directive _ (hdirectives other (h other hother))
  rw [hmap, hitems, List.map_append, List.map_cons, String.join_append, String.join_cons,
    hchanged, hsame pre fun other hother => List.mem_append_left _ hother,
    hsame post fun other hother => List.mem_append_right _ hother]
  simp only [String.append_assoc]

/-- What pruning leaves of a script that is one function. -/
theorem prune_eq {source : String} {body : Body} {f : Function}
    (hbody : parseScript? source = some body) (hsole : soleFunction body = .ok f) :
    prune source = .ok (body.mapFunctions Function.prunedSource) := by
  unfold prune
  rw [hbody]
  dsimp only
  rw [hsole]
  rfl

/-- A source with one function is the text of the statements in its body with something around them,
and so is what pruning makes of it. -/
theorem exists_prune {source : String} {body : Body} {f : Function}
    (hbody : parseScript? source = some body) (hsole : soleFunction body = .ok f) :
    ∃ front back, source = front ++ String.join (f.items.map Item.source) ++ back ∧
      prune source = .ok (front ++
        String.join (f.items.map (keptText (liveNames f.body.statements))) ++ back) := by
  obtain ⟨pre, item, post, hitems, hitem, hdirectives⟩ := exists_sole (soleFunction_eq_ok hsole)
  obtain ⟨e, hparse, -, -⟩ := parseScript?_eq_some hbody
  have htext : item.source = item.lead ++ f.source := by
    rw [Item.source, (function_of_body hparse (by rw [hitems]; simp) hitem).1]
  refine ⟨String.join (pre.map Item.source) ++ item.lead ++ f.head ++ f.paramsText ++ f.gap ++
    "\x7b", f.tail ++ "\x7d" ++ String.join (post.map Item.source) ++ body.tail, ?_, ?_⟩
  · rw [← parseScript?_source hbody, Body.source, hitems, List.map_append, List.map_cons,
      String.join_append, String.join_cons, htext]
    simp only [Function.source, Body.block, Body.source, Function.body, String.append_assoc]
  · rw [prune_eq hbody hsole, mapFunctions_eq hitems hitem hdirectives]
    simp only [Function.prunedSource, Body.keptSource, Function.body, String.append_assoc]

/-- Pruning a source that is one function takes out the text of each declaration of a name that is
not reached, and nothing else; deleting the ranges one after another comes to the same. Names are
found whatever order they are looked at in and whatever order they are declared in, and what is left
refers to none that is gone. -/
theorem prune_cuts_unreached {source : String} {body : Body} {f : Function}
    (hbody : parseScript? source = some body) (hsole : soleFunction body = .ok f) :
    let statements := f.body.statements
    let step := Worklist.Step (declarationLinks statements)
    ∃ front back texts,
      source = front ++ String.join (f.items.map Item.source) ++ back ∧
      prune source = .ok (front ++ String.join texts ++ back) ∧
      List.Forall₂ (Leaves statements) f.items texts ∧
      (∀ item ∈ f.items, ∀ d, item.statement = .function d → item.text = d.source) ∧
      (∀ cuts : List (Nat × Nat),
        cuts.Perm (cutRanges (liveNames statements) (bytes front).length f.items) →
        cuts.Pairwise (fun range range' => range'.1 ≤ range.1) →
        cuts.foldl deleteRange (bytes source) = bytes (front ++ String.join texts ++ back)) ∧
      (∀ s ∈ statements, ¬ IsDead statements s → ∀ id ∈ s.tree.references,
        Declares statements id → Reached statements id) ∧
      (WellFounded fun w' w => step w w') ∧
      (∀ w, ReflTransGen step ⟨rootNames statements, []⟩ w →
        (w.pending ≠ [] → ∃ w', step w w') ∧
        (w.pending = [] → ∀ id, id ∈ w.live ↔ Reached statements id)) ∧
      ∀ others, (∀ s, s ∈ others ↔ s ∈ statements) → ∀ id,
        id ∈ liveNames others ↔ Reached statements id := by
  intro statements step
  obtain ⟨front, back, hsource, hprune⟩ := exists_prune hbody hsole
  have htexts : ∀ item ∈ f.items, ∀ d, item.statement = .function d → item.text = d.source := by
    obtain ⟨pre, item, post, hitems, hitem, -⟩ := exists_sole (soleFunction_eq_ok hsole)
    obtain ⟨e, hparse, -, -⟩ := parseScript?_eq_some hbody
    obtain ⟨-, -, _, _, _, hf⟩ := function_of_body hparse (by rw [hitems]; simp) hitem
    exact fun inner hinner d => text_of_function hf hinner
  refine ⟨front, back, _, hsource, hprune, ?_, htexts, fun cuts hperm hsorted => ?_,
    fun s hs hkept id => reached_of_kept hs hkept, Worklist.wellFounded_step _,
    fun w hrun => ⟨Worklist.exists_step, fun hdone id => ?_⟩, fun others hothers id => ?_⟩
  · rw [List.forall₂_map_right_iff]
    exact List.forall₂_same.mpr fun item _ => leaves_keptText statements item
  · have hcut : ∀ item ∈ f.items, isCut (liveNames statements) item.statement = true →
        bytes item.text ≠ [] := by
      intro item hitem hcut
      obtain ⟨d, hd⟩ := exists_function_of_isCut hcut
      rw [htexts item hitem d hd]
      exact bytes_source_ne_nil d
    rw [hsource, bytes_append, bytes_append, bytes_append, bytes_append]
    exact foldl_deleteRange hcut _ _ hperm hsorted
  · have hvalid := (Worklist.valid_start (declarationLinks statements)
      (rootNames statements)).run hrun
    exact (hvalid.mem_live hdone).trans alive_iff_reached
  · exact mem_liveNames_iff_reached.trans (reached_congr hothers)

/-- A function with two helpers that call each other, and a text behind them. -/
def mutualHelpers (more : String) : String :=
  "function f()\x7bfunction a()\x7bb()\x7dfunction b()\x7ba()\x7d" ++ more ++ "a()\x7d"

/-- A third helper that nothing calls is cut out. -/
theorem prune_cuts_unreached_mutual :
    ∃ body f front back texts, parseScript? (mutualHelpers "function c()\x7ba()\x7d") = some body ∧
      soleFunction body = .ok f ∧
      mutualHelpers "function c()\x7ba()\x7d" =
        front ++ String.join (f.items.map Item.source) ++ back ∧
      front ++ String.join texts ++ back = mutualHelpers "" ∧
      List.Forall₂ (Leaves f.body.statements) f.items texts := by
  have hparse : ((parseScript? (mutualHelpers "function c()\x7ba()\x7d")).bind fun body =>
      (soleFunction body).toOption).isSome = true := by decide +kernel
  have hresult : (prune (mutualHelpers "function c()\x7ba()\x7d")).toOption =
      some (mutualHelpers "") := by decide +kernel
  obtain ⟨f, hf⟩ := Option.isSome_iff_exists.mp hparse
  obtain ⟨body, hbody, hf⟩ := Option.bind_eq_some_iff.mp hf
  have hsole := Outcome.eq_ok_of_toOption hf
  obtain ⟨front, back, texts, hsource, hprune, hleaves, -⟩ := prune_cuts_unreached hbody hsole
  have hsame := Except.ok.inj (hprune.symm.trans (Outcome.eq_ok_of_toOption hresult))
  exact ⟨body, f, front, back, texts, hbody, hsole, hsource, hsame, hleaves⟩

end Collector
