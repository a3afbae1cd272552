import Collector.Context.Usage
import Collector.Proofs.Outcomes
import Collector.Proofs.Script.LeavingStatements
import Collector.Proofs.Script.Trees

/-!
# The context variables that a script reads

A script reads a context variable where a property of the bare name `ctx` stands in it, by its name
or by a key in brackets that gives the name. `usages_exact` says that all of these accesses are
collected and nothing else, each one once, in the order in which their objects stand in the text.

The accesses are among the marks of a script (`Part.marks`). What is collected from the tree is what
the marks use (`usages_eq`); the marks tell where in the tree each access stands
(`exists_mark_iff`), and that the text holds them in their order (`parseScript?_traces`).
-/

namespace Collector

open Script

namespace Script

/-! ## What reads a context variable -/

/-- An expression in brackets gives a name: a text that is known, or a name, perhaps in
parentheses. -/
inductive Expr.Gives : Expr → String → Prop
  | string (value : String) : Gives (.string value) value
  | template (text : Quasi) : Gives (.template [text] []) (text.cooked.getD text.raw)
  | name (id : String) : Gives (.name id) id
  | paren {inner : Expr} {key : String} (text : String) (h : inner.Gives key) :
    Gives (.paren text inner) key

/-- An expression reads a context variable: it is an access to a property of the bare name `ctx`. -/
inductive Expr.Reads : Expr → String → Prop
  | dotted (key : String) (optional : Bool) : Reads (.member (.name "ctx") key optional) key
  | bracketed {value : Expr} {key : String} (optional : Bool) (h : value.Gives key) :
    Reads (.index (.name "ctx") value optional) key

/-- The context variable that a mark uses. -/
def Mark.usage? : Mark → Option String
  | .dotted id key => if id = contextName then some key else none
  | .bracketed id key => if id = contextName then key else none
  | .word _ => none

theorem Expr.givenName?_eq_some {e : Expr} {key : String} :
    e.givenName? = some key ↔ e.Gives key := by
  constructor
  · intro h
    fun_induction Expr.givenName? e with
    | case1 value => cases h; exact .string _
    | case2 text => cases h; exact .template _
    | case3 id => cases h; exact .name _
    | case4 text inner ih => exact .paren _ (ih h)
    | case5 => cases h
  · intro h
    induction h with
    | string value => rfl
    | template text => rfl
    | name id => rfl
    | paren text _ ih => exact ih

/-- A part uses a context variable itself where it is an access that reads it. -/
theorem Part.usage_iff {part : Part} {key : String} :
    (∃ mark, part.mark? = some mark ∧ mark.usage? = some key) ↔
      ∃ e, part = .expr e ∧ e.Reads key := by
  constructor
  · rintro ⟨mark, hmark, hkey⟩
    unfold mark? at hmark
    split at hmark
    · cases hmark
      cases hkey
    · rename_i id field optional
      cases hmark
      unfold Mark.usage? at hkey
      dsimp only at hkey
      split at hkey
      · rename_i hid
        cases hkey
        exact ⟨_, rfl, hid ▸ .dotted _ _⟩
      · cases hkey
    · rename_i id value optional
      cases hmark
      unfold Mark.usage? at hkey
      dsimp only at hkey
      split at hkey
      · rename_i hid
        exact ⟨_, rfl, hid ▸ .bracketed _ (Expr.givenName?_eq_some.mp hkey)⟩
      · cases hkey
    · cases hmark
      cases hkey
    · cases hmark
      cases hkey
    · cases hmark
  · rintro ⟨e, rfl, hreads⟩
    cases hreads with
    | dotted optional => exact ⟨_, rfl, rfl⟩
    | bracketed optional h => exact ⟨_, rfl, Expr.givenName?_eq_some.mpr h⟩

/-- Nothing in a name reads a context variable. -/
theorem Part.not_reads_of_name {id : String} {path : List Nat} {e : Expr} {key : String}
    (h : (Part.expr (.name id)).At path (.expr e)) : ¬ e.Reads key := by
  intro hreads
  cases path with
  | nil =>
    cases h
    cases hreads
  | cons step path =>
    obtain ⟨next, hnext, -⟩ := h
    cases hnext

/-- The marks that use a context variable are left by the accesses that read it. -/
theorem Part.exists_mark_iff {part : Part} {path : List Nat} {key : String} :
    (∃ mark, (path, mark) ∈ part.marks ∧ mark.usage? = some key) ↔
      ∃ e, part.At path (.expr e) ∧ e.Reads key := by
  induction path generalizing part with
  | nil =>
    have hnil (mark : Mark) : ([], mark) ∈ part.marks ↔ part.mark? = some mark := by
      simp [mem_marks]
    simp only [hnil, usage_iff, Part.At]
    simp only [eq_comm]
  | cons step path ih =>
    have hcons (mark : Mark) : (step :: path, mark) ∈ part.marks ↔
        step ∈ part.steps ∧ (path, mark) ∈ part.marksAt step := by
      simp [mem_marks]
    simp only [hcons, Part.At]
    constructor
    · rintro ⟨mark, ⟨-, hmem⟩, hkey⟩
      unfold marksAt at hmem
      cases hinner : part.parts[step]? with
      | none => simp [hinner] at hmem
      | some inner =>
        obtain ⟨e, he, hreads⟩ := ih.mp ⟨mark, by simpa [hinner] using hmem, hkey⟩
        exact ⟨e, ⟨inner, rfl, he⟩, hreads⟩
    · rintro ⟨e, ⟨inner, hinner, he⟩, hreads⟩
      obtain ⟨mark, hmem, hkey⟩ := ih.mpr ⟨e, he, hreads⟩
      refine ⟨mark, ⟨?_, by simpa [marksAt, hinner] using hmem⟩, hkey⟩
      by_contra hstep
      obtain ⟨id, rfl⟩ := covered_name hinner hstep
      exact not_reads_of_name he hreads

/-! ## What is collected from a tree -/

/-- The node of a part. -/
def Part.tree : Part → Tree
  | .expr e => e.tree
  | .key name => name.tree
  | .property p => p.tree
  | .pattern p => p.tree
  | .function f => f.tree
  | .classOf c => c.tree
  | .member m => m.tree
  | .statement s => s.tree
  | .branch c => c.tree
  | .body b => b.tree

/-- A tree reads what its root reads and what its children read. -/
theorem Tree.usages_node (label : Label) (children : List Tree) :
    (Tree.node label children).usages =
      (Tree.node label children).usage?.toList ++ children.flatMap Tree.usages := by
  unfold Tree.usages
  rw [Tree.nodes, List.filterMap_cons, nodesOf_eq, List.filterMap_flatMap]
  cases (Tree.node label children).usage? <;> rfl

@[simp]
theorem Tree.usages_leaf (label : Label) : (Tree.leaf label).usages = [] := by
  cases label <;> rfl

@[simp]
theorem Tree.usages_other (children : List Tree) :
    (Tree.node .other children).usages = children.flatMap Tree.usages := by
  rw [usages_node]
  rfl

theorem usages_bindingLeaves (name : Option String) :
    (bindingLeaves name).flatMap Tree.usages = [] := by
  cases name <;> simp [bindingLeaves]

theorem usages_templateTree (texts : List Quasi) (values : List Tree) :
    (templateTree texts values).usages = values.flatMap Tree.usages := by
  unfold templateTree
  split <;> simp

/-- Only the bare name is the object that context variables are read from. -/
theorem Expr.isContext_tree {e : Expr} : isContext e.tree = true ↔ e = .name contextName := by
  cases e with
  | name id => simp [isContext, Expr.tree, Tree.leaf, Tree.label]
  | template texts values =>
    simp only [isContext, Expr.tree, templateTree]
    split <;> simp [Tree.leaf, Tree.label]
  | _ => simp [isContext, Expr.tree, Function.tree_eq, Class.tree_eq, Tree.leaf, Tree.label]

theorem Expr.bracketName?_tree (e : Expr) : bracketName? e.tree = e.givenName? := by
  fun_induction Expr.givenName? e with
  | case1 value => rfl
  | case2 text => rfl
  | case3 id => rfl
  | case4 text inner ih => exact ih
  | case5 e hstring htemplate hname hparen =>
    cases e with
    | template texts values =>
      simp only [Expr.tree, templateTree]
      split
      · rename_i htrees
        rw [exprTrees_eq, List.map_eq_nil_iff] at htrees
        subst htrees
        exact absurd rfl (htemplate _)
      · rfl
    | function f => rw [Expr.tree, Function.tree_eq]; rfl
    | arrow text f => rw [Expr.tree, Function.tree_eq]; rfl
    | classOf c => rw [Expr.tree, Class.tree_eq]; rfl
    | _ => first | rfl | simp_all

/-- What a part reads: itself, and in its parts. -/
theorem Part.usages_tree (part : Part) :
    part.tree.usages = (part.mark?.bind Mark.usage?).toList ++
      part.parts.flatMap fun inner => inner.tree.usages := by
  cases part with
  | expr e =>
    cases e with
    | member owner field optional =>
      have hown : (Part.expr (.member owner field optional)).mark?.bind Mark.usage? =
          if isContext owner.tree then some field else none := by
        by_cases hname : owner = .name contextName
        · rw [if_pos (Expr.isContext_tree.mpr hname), hname]
          rfl
        · rw [if_neg (mt Expr.isContext_tree.mp hname)]
          cases owner with
          | name id => exact if_neg fun hid : id = contextName => hname (by rw [hid])
          | _ => rfl
      rw [hown]
      exact Tree.usages_node _ _
    | index owner key optional =>
      have hown : (Part.expr (.index owner key optional)).mark?.bind Mark.usage? =
          if isContext owner.tree then bracketName? key.tree else none := by
        by_cases hname : owner = .name contextName
        · rw [if_pos (Expr.isContext_tree.mpr hname), hname, Expr.bracketName?_tree]
          rfl
        · rw [if_neg (mt Expr.isContext_tree.mp hname)]
          cases owner with
          | name id => exact if_neg fun hid : id = contextName => hname (by rw [hid])
          | _ => rfl
      rw [hown]
      exact Tree.usages_node _ _
    | _ =>
      simp [Part.tree, Expr.tree, mark?, parts, Expr.parts, exprTrees_eq, propertyTrees_eq,
        List.flatMap_map, Mark.usage?, usages_templateTree, Tree.usages_node, Tree.usage?]
  | key name => cases name <;> simp [Part.tree, Key.tree, mark?, parts, Key.parts]
  | property p =>
    cases p <;> simp [Part.tree, Property.tree, Expr.tree, mark?, parts, Property.parts,
      Tree.usages_node, Tree.usage?]
  | pattern p =>
    cases p <;> simp [Part.tree, Pattern.tree, mark?, parts, Pattern.parts, patternTrees_eq,
      List.flatMap_map, Mark.usage?]
  | function f =>
    simp [Part.tree, Function.tree_eq, mark?, parts, Function.parts, itemParts,
      usages_bindingLeaves, List.flatMap_map]
  | classOf c =>
    simp [Part.tree, Class.tree_eq, mark?, parts, Class.parts, usages_bindingLeaves,
      List.flatMap_map]
  | member m =>
    cases m <;> simp [Part.tree, Member.tree, mark?, parts, Member.parts, exprTrees_eq,
      statementTrees_eq, List.flatMap_map]
  | statement s =>
    cases s <;> simp [Part.tree, Statement.tree, mark?, parts, Statement.parts, exprTrees_eq,
      patternTrees_eq, statementTrees_eq, caseTrees_eq, List.flatMap_map, Mark.usage?]
  | branch c =>
    cases c
    simp [Part.tree, Case.tree, mark?, parts, Case.parts, exprTrees_eq, statementTrees_eq,
      List.flatMap_map]
  | body b => simp [Part.tree, Body.tree, mark?, parts, itemParts, itemTrees_eq, List.flatMap_map]

/-- Nothing is collected from what the mark of an access covers. -/
theorem Part.usages_covered (part : Part) :
    ((part.parts.take part.covered).flatMap fun inner => inner.tree.usages) = [] := by
  unfold covered
  split <;> simp [parts, Expr.parts, Part.tree, Expr.tree]

/-- What is collected from the tree of a part is what its marks use. -/
theorem Part.usages_eq (part : Part) :
    part.tree.usages = part.words.filterMap Mark.usage? := by
  induction part using induct with
  | h part ih =>
    rw [usages_tree, words_eq, List.filterMap_append, List.filterMap_flatMap]
    congr 1
    · cases part.mark? with
      | none => rfl
      | some mark => cases h : mark.usage? <;> simp [h]
    · rw [← List.take_append_drop part.covered part.parts, List.flatMap_append, usages_covered,
        List.nil_append, List.take_append_drop]
      exact List.flatMap_congr fun inner hinner => ih inner (List.mem_of_mem_drop hinner)

end Script

/-! ## What is collected from a script -/

/-- The accesses that read a context variable are collected from a script, one item for each and
nothing else, in the order in which their objects stand in the text. The accesses are among the
marks of the script, each at its own path. -/
theorem usages_exact {code : String} {body : Body} (h : parseScript? code = some body) :
    ∃ places : List Nat,
      List.Forall₂ (fun found place => found.2.StandsAt code.toList place)
        (Part.body body).marks places ∧
      places.Pairwise (· < ·) ∧
      contextUsages code = .ok ((Part.body body).marks.filterMap fun found => found.2.usage?) ∧
      ((Part.body body).marks.map Prod.fst).Nodup ∧
      ∀ path key, (∃ mark, (path, mark) ∈ (Part.body body).marks ∧ mark.usage? = some key) ↔
        ∃ e, (Part.body body).At path (.expr e) ∧ e.Reads key := by
  obtain ⟨c, -, htraces⟩ := parseScript?_traces h
  obtain ⟨places, hplaces, hsorted, -⟩ := htraces.placed List.suffix_rfl
  refine ⟨places, ?_, hsorted, ?_, (Part.body body).paths_nodup, fun path key =>
    Part.exists_mark_iff⟩
  · rwa [Part.words, List.forall₂_map_left_iff] at hplaces
  · have husages := (Part.body body).usages_eq
    rw [Part.words, List.filterMap_map] at husages
    unfold contextUsages
    rw [h]
    exact congrArg Except.ok husages

/-- What is collected is collected from a text that reads as a script. -/
theorem exists_parse_of_contextUsages {code : String} {used : List String}
    (h : contextUsages code = .ok used) : ∃ body, parseScript? code = some body := by
  unfold contextUsages at h
  split at h
  · exact ⟨_, ‹_›⟩
  · cases h

/-- In one script: a name behind a point, a string and a name in brackets, and no other access. -/
theorem usages_exact_mixed :
    ∃ body, parseScript? "f(ctx.a, g => ctx['b'], ctx?.[(c)], x.ctx.d, (ctx).e)" = some body ∧
      contextUsages "f(ctx.a, g => ctx['b'], ctx?.[(c)], x.ctx.d, (ctx).e)" =
        .ok ["a", "b", "c"] ∧
      ∃ places : List Nat,
        List.Forall₂ (fun found place => found.2.StandsAt
            "f(ctx.a, g => ctx['b'], ctx?.[(c)], x.ctx.d, (ctx).e)".toList place)
          (Part.body body).marks places ∧
        places.Pairwise (· < ·) ∧
        contextUsages "f(ctx.a, g => ctx['b'], ctx?.[(c)], x.ctx.d, (ctx).e)" =
          .ok ((Part.body body).marks.filterMap fun found => found.2.usage?) ∧
        ((Part.body body).marks.map Prod.fst).Nodup ∧
        ∀ path key, (∃ mark, (path, mark) ∈ (Part.body body).marks ∧ mark.usage? = some key) ↔
          ∃ e, (Part.body body).At path (.expr e) ∧ e.Reads key := by
  have husages : (contextUsages "f(ctx.a, g => ctx['b'], ctx?.[(c)], x.ctx.d, (ctx).e)").toOption =
      some ["a", "b", "c"] := by decide +kernel
  have husages := Outcome.eq_ok_of_toOption husages
  obtain ⟨body, hbody⟩ := exists_parse_of_contextUsages husages
  exact ⟨body, hbody, husages, usages_exact hbody⟩

end Collector
