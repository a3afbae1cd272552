import Collector.Proofs.Export.Assignments
import Collector.Proofs.Export.Static
import Collector.Proofs.Script.Methods
import Collector.Proofs.Script.Texts

/-!
# Functions in exports

The functions that a module exports are those that the syntax tree of the exported object holds, in
parentheses and in objects at any depth (`exists_holds`). Each of them was read in the module with
the text that is exported: as a function expression, as an arrow function or as a method
(`ExportsFunction.sourced`).
-/

namespace Collector

open Script Grammar

namespace Script

/-! ## Functions in a tree -/

/-- An expression with a given text holds a function: it is the function, perhaps in parentheses, or
an object that holds it. The function comes with its own text, and with that of its value if it is
an arrow function before an expression. -/
inductive Expr.Holds : String → Expr → String → Option String → Function → Prop
  | function {text : String} {f : Function} : Holds text (.function f) text none f
  | arrow {text : String} {valueText : Option String} {f : Function} :
      Holds text (.arrow valueText f) text valueText f
  | paren {text inside source : String} {inner : Expr} {valueText : Option String} {f : Function}
      (h : Holds inside inner source valueText f) :
      Holds text (.paren inside inner) source valueText f
  | field {text inside source : String} {properties : List Property} {comma shorthand : Bool}
      {key : Key} {value : Expr} {valueText : Option String} {f : Function}
      (hp : .field key value shorthand inside ∈ properties)
      (h : Holds inside value source valueText f) :
      Holds text (.object properties comma) source valueText f
  | method {text source : String} {properties : List Property} {comma : Bool} {key : Key}
      {f : Function} (hp : .method key f source ∈ properties) :
      Holds text (.object properties comma) source none f

variable {source text : String} {valueText : Option String} {f : Function}

/-- A larger object holds the same functions, whatever its text is. -/
theorem Expr.Holds.object_mono {properties properties' : List Property} {comma comma' : Bool}
    {text' : String} (h : Expr.Holds text (.object properties comma) source valueText f)
    (hsub : properties ⊆ properties') :
    Expr.Holds text' (.object properties' comma') source valueText f := by
  cases h with
  | field hp h => exact .field (hsub hp) h
  | method hp => exact .method (hsub hp)

/-- Parentheses around an object hold what it holds. -/
theorem Expr.Holds.of_withoutParens {e : Expr} {properties : List Property} {comma : Bool}
    (he : e.withoutParens = .object properties comma)
    (h : Expr.Holds text (.object properties comma) source valueText f) (text' : String) :
    Expr.Holds text' e source valueText f := by
  induction e using Expr.withoutParens.induct generalizing text' with
  | case1 inside inner ih => exact .paren (ih he inside)
  | case2 e hne =>
    have hsame : e.withoutParens = e := by
      cases e with
      | paren inside inner => exact (hne inside inner rfl).elim
      | _ => rfl
    obtain rfl := hsame.symm.trans he
    exact h.object_mono (List.Subset.refl _)

mutual

theorem exists_holds (text : String) (e : Expr)
    (h : (Export.function source).Inside (e.export text)) :
    ∃ valueText f, Expr.Holds text e source valueText f := by
  cases e with
  | function f =>
    cases h
    exact ⟨_, _, .function⟩
  | arrow valueText f =>
    cases h
    exact ⟨_, _, .arrow⟩
  | object properties comma =>
    cases h with
    | entry hmem hinside =>
      rcases Entries.mem_putAll hmem with hnil | ⟨entry, hentry, hvalue⟩
      · cases hnil
      · obtain rfl : _ = entry.2 := hvalue
        obtain ⟨valueText, f, hf⟩ := exists_holds_of_field properties entry hentry hinside
        exact ⟨valueText, f, hf.object_mono (List.Subset.refl _)⟩
  | paren inside inner =>
    obtain ⟨valueText, f, hf⟩ := exists_holds inside inner h
    exact ⟨valueText, f, .paren hf⟩
  | _ =>
    unfold Expr.export at h
    split at h
    · cases h
    · cases h
termination_by structural e

theorem exists_holds_of_field (properties : List Property) (entry : String × Export)
    (hentry : entry ∈ exportFields properties) (h : (Export.function source).Inside entry.2) :
    ∃ valueText f, Expr.Holds "" (.object properties false) source valueText f := by
  have keyed {key : Key} {value : Export}
      (hk : entry ∈ (key.text?.map fun name => (name, value)).toList) : entry.2 = value := by
    obtain ⟨name, -, rfl⟩ := Option.map_eq_some_iff.mp (Option.mem_toList.mp hk)
    rfl
  cases properties with
  | nil => cases hentry
  | cons property rest =>
    have later (hentry : entry ∈ exportFields rest) :
        ∃ valueText f, Expr.Holds "" (.object (property :: rest) false) source valueText f := by
      obtain ⟨valueText, f, hf⟩ := exists_holds_of_field rest entry hentry h
      exact ⟨valueText, f, hf.object_mono (List.subset_cons_self _ _)⟩
    cases property with
    | field key value shorthand inside =>
      rcases List.mem_append.mp hentry with hk | hrest
      · obtain ⟨valueText, f, hf⟩ := exists_holds inside value (keyed hk ▸ h)
        exact ⟨valueText, f, .field List.mem_cons_self hf⟩
      · exact later hrest
    | method key f inside =>
      rcases List.mem_append.mp hentry with hk | hrest
      · rw [keyed hk] at h
        cases h
        exact ⟨none, f, .method List.mem_cons_self⟩
      · exact later hrest
    | accessor kind key f inside =>
      rcases List.mem_append.mp hentry with hk | hrest
      · rw [keyed hk] at h
        cases h
      · exact later hrest
    | spread value => exact later hentry
    | pending id value => exact later hentry
termination_by structural properties

end

/-! ## Where functions were read -/

/-- A function with its text, as a production of the grammar read it: a function expression, an
arrow function or a method. No default is pending in it. -/
inductive Function.Sourced (f : Function) (source : String) : Option String → Prop
  | function {fuel level : Nat} {c c' : Cursor}
      (h : (grammar fuel (level + 1)).assignment Mode.script c = some (.function f, c'))
      (hs : source = slice c.next.start c'.left) (hp : f.tree.isPending = false) :
      Sourced f source none
  | arrow {fuel level : Nat} {c c' : Cursor} {valueText : Option String}
      (h : (grammar fuel (level + 1)).assignment Mode.script c = some (.arrow valueText f, c'))
      (hs : source = slice c.next.start c'.left) (hp : f.tree.isPending = false) :
      Sourced f source valueText
  | method {fuel level : Nat} {c c' : Cursor} {key : Key}
      (h : (grammar fuel level).property Mode.script c = some (.method key f source, c'))
      (hp : (Property.method key f source).tree.isPending = false) : Sourced f source none

theorem Tree.isPending_paren (child : Tree) :
    (Tree.node .paren [child]).isPending = child.isPending := by
  unfold Tree.isPending
  rw [Tree.labels_node, List.flatMap_singleton, List.contains_cons]
  rfl

/-- Nothing is pending in the parts of an object in which nothing is. -/
theorem isPending_of_object {properties : List Property} {comma : Bool}
    (h : (Expr.object properties comma).tree.isPending = false) {p : Property}
    (hp : p ∈ properties) : p.tree.isPending = false := by
  have htree : (Expr.object properties comma).tree = .node .other (propertyTrees properties) := rfl
  rw [htree, Tree.isPending_other, propertyTrees_eq, List.any_map, List.any_eq_false] at h
  simpa using h p hp

/-- The functions that an expression holds were read where the expression was. -/
theorem Expr.Holds.sourced {fuel level : Nat} {c c' : Cursor} {e : Expr}
    (h : Expr.Holds text e source valueText f)
    (he : (grammar fuel level).assignment Mode.script c = some (e, c'))
    (ht : text = slice c.next.start c'.left) (hp : e.tree.isPending = false) :
    f.Sourced source valueText := by
  induction h generalizing fuel level c c' with
  | function =>
    cases level with
    | zero => cases he
    | succ level => exact .function he ht hp
  | arrow =>
    cases level with
    | zero => cases he
    | succ level => exact .arrow he ht hp
  | @paren _ inside _ inner _ _ h ih =>
    cases level with
    | zero => cases he
    | succ level =>
      rcases value_of_parenthesized (parenthesized_of_assignment he) with ⟨all, rfl⟩ |
        ⟨d, d', hd, hinside⟩
      · cases h
      · exact ih hd hinside ((Tree.isPending_paren inner.tree).symm.trans hp)
  | @field _ inside _ properties comma shorthand key value _ _ hmem h ih =>
    cases level with
    | zero => cases he
    | succ level =>
      obtain ⟨d, d', hd⟩ := property_of_assignment he hmem
      have hpending := isPending_of_object hp hmem
      have htree : (Property.field key value shorthand inside).tree =
          .node .other [key.tree, value.tree] := rfl
      rw [htree, Tree.isPending_other, List.any_cons, List.any_cons, List.any_nil, Bool.or_false,
        Bool.or_eq_false_iff] at hpending
      rcases value_of_property hd with ⟨id, rfl⟩ | ⟨d₁, hvalue, hinside⟩
      · cases h
      · exact ih hvalue hinside hpending.2
  | @method _ _ properties comma key _ hmem =>
    cases level with
    | zero => cases he
    | succ level =>
      obtain ⟨d, d', hd⟩ := property_of_assignment he hmem
      exact .method hd (isPending_of_object hp hmem)

end Script

/-! ## The exported object -/

/-- A module exports a function with its text, and with that of its value if it is an arrow function
before an expression. -/
def ExportsFunction (module source : String) (valueText : Option String) (f : Function) : Prop :=
  ∃ body properties, parseScript? module = some body ∧
    (body.statements.filterMap Statement.exported?).getLast? = some properties ∧
    Expr.Holds "" (.object properties false) source valueText f

/-- A statement in which nothing is pending. -/
theorem isPending_of_statement {body : Body} (h : body.tree.isPending = false) {s : Statement}
    (hs : s ∈ body.items.map Item.statement) : s.tree.isPending = false := by
  rw [isPending_body, List.any_eq_false] at h
  simpa using h s hs

namespace ExportsFunction

variable {module source : String} {valueText : Option String} {f : Function}

/-- Every function that a module exports was read in it. -/
theorem sourced (h : ExportsFunction module source valueText f) : f.Sourced source valueText := by
  obtain ⟨body, properties, hbody, hlast, hholds⟩ := h
  obtain ⟨c, hread, -, hpending⟩ := parseScript?_eq_some hbody
  obtain ⟨s, hs, hexported⟩ := List.mem_filterMap.mp (List.mem_of_getLast? hlast)
  obtain ⟨op, target, value, comma, rfl, -, hvalue⟩ :=
    Statement.exported?_eq_some_iff.mp hexported
  have hs := List.mem_of_mem_filter hs
  obtain ⟨item, hitem, hstatement⟩ := List.mem_map.mp hs
  have hassign : (Expr.assign op (.place target) value).tree.isPending = false := by
    have htree : (Statement.expression (.assign op (.place target) value)).tree =
        .node .other [(Expr.assign op (.place target) value).tree] := rfl
    have := isPending_of_statement hpending hs
    rwa [htree, Tree.isPending_other, List.any_cons, List.any_nil, Bool.or_false] at this
  have hvalue' : value.tree.isPending = false := by
    have htree : (Expr.assign op (.place target) value).tree =
        .node .other [target.tree, value.tree] := rfl
    rw [htree, Tree.isPending_other, List.any_cons, List.any_cons, List.any_nil, Bool.or_false,
      Bool.or_eq_false_iff] at hassign
    exact hassign.2
  rcases expression_of_body hread hitem hstatement with ⟨id, hid⟩ | ⟨level, d, d', he⟩
  · cases hid
  obtain ⟨first, d₁, hfirst, he⟩ := Parser.bind_eq_some.mp he
  rcases commaList_cases he with rfl | ⟨all, hall⟩
  · cases level with
    | zero => cases hfirst
    | succ level =>
      obtain ⟨d₂, hd⟩ := value_of_assign hfirst
      have hobject : Expr.Holds "" (.object properties comma) source valueText f :=
        hholds.object_mono (List.Subset.refl _)
      exact (hobject.of_withoutParens hvalue _).sourced hd rfl hvalue'
  · cases hall

end ExportsFunction

/-- Every function in the exports of a module is one that the module exports. -/
theorem exists_exportsFunction {module source : String} {exports : Exports}
    (h : Exports.ofSource module = .ok exports)
    (hs : (Export.function source).Inside (.object exports)) :
    ∃ valueText f, ExportsFunction module source valueText f := by
  unfold Exports.ofSource at h
  split at h
  · cases h
  next body hbody =>
    split at h
    next properties hlast =>
      cases h
      obtain ⟨valueText, f, hf⟩ := exists_holds "" (.object properties false) hs
      exact ⟨valueText, f, body, properties, hbody, hlast, hf⟩
    · cases h

end Collector
