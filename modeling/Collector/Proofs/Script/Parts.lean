import Collector.Script.Syntax

/-!
# The parts of a script

A script is made of parts: expressions, statements, functions and so on, each of which is made of
smaller ones. `Part.parts` lists them for every construct, in the order of the text, and `Part.At`
says what stands at the end of a path from one part to another. `Part.induct` is induction over the
parts of a part.
-/

namespace Collector.Script

/-- A part of a script. -/
inductive Part where
  | expr (e : Expr)
  | key (name : Key)
  | property (p : Property)
  | pattern (p : Pattern)
  | function (f : Function)
  | classOf (c : Class)
  | member (m : Member)
  | statement (s : Statement)
  | branch (c : Case)
  | body (b : Body)

/-! ## The parts of each construct -/

/-- The parts of an expression. -/
def Expr.parts : Expr → List Part
  | .template _ values => values.map .expr
  | .tagged tag _ values => .expr tag :: values.map .expr
  | .array items _ => items.map .expr
  | .spread items => [.expr items]
  | .object properties _ => properties.map .property
  | .function f => [.function f]
  | .arrow _ f => [.function f]
  | .classOf c => [.classOf c]
  | .paren _ inner => [.expr inner]
  | .member owner _ _ => [.expr owner]
  | .index owner key _ => [.expr owner, .expr key]
  | .privateMember owner _ _ => [.expr owner]
  | .call callee arguments _ => .expr callee :: arguments.map .expr
  | .new callee arguments => .expr callee :: arguments.map .expr
  | .chain inner => [.expr inner]
  | .importCall arguments => arguments.map .expr
  | .unary _ operand => [.expr operand]
  | .update _ _ target => [.expr target]
  | .binary _ left right => [.expr left, .expr right]
  | .logical _ left right => [.expr left, .expr right]
  | .privateIn _ right => [.expr right]
  | .assign _ target value => [.pattern target, .expr value]
  | .conditional test yes no => [.expr test, .expr yes, .expr no]
  | .sequence items => items.map .expr
  | .await operand => [.expr operand]
  | .yield _ operand => operand.map .expr
  | .name _ | .this | .super | .null | .bool _ | .number _ | .bigint _ | .string _ | .regex _ _
  | .hole | .metaProperty _ _ => []

/-- The parts of the name of a property. -/
def Key.parts : Key → List Part
  | .computed value => [.expr value]
  | .name _ | .string _ | .number _ | .bigint _ | .privateName _ => []

/-- The parts of a property. -/
def Property.parts : Property → List Part
  | .field key value _ _ => [.key key, .expr value]
  | .method key f _ => [.key key, .function f]
  | .accessor _ key f _ => [.key key, .function f]
  | .spread value => [.expr value]
  | .pending id value => [.expr (.name id), .expr value]

/-- The parts of a pattern. -/
def Pattern.parts : Pattern → List Part
  | .place target => [.expr target]
  | .array items => items.map .pattern
  | .object properties => properties.map .pattern
  | .field key value _ => [.key key, .pattern value]
  | .withValue pattern value => [.pattern pattern, .expr value]
  | .rest pattern => [.pattern pattern]
  | .bind _ | .hole => []

/-- The statements of a list, as parts. -/
def itemParts (items : List Item) : List Part := items.map fun item => .statement item.statement

/-- The parts of a function. -/
def Function.parts (f : Function) : List Part := f.params.map .pattern ++ itemParts f.items

/-- The parts of a class. -/
def Class.parts (c : Class) : List Part :=
  c.decorators.map .expr ++ c.heritage.map .expr ++ c.members.map .member

/-- The parts of a member of a class. -/
def Member.parts : Member → List Part
  | .method decorators _ _ key f => decorators.map .expr ++ [.key key, .function f]
  | .field decorators _ _ key value => decorators.map .expr ++ .key key :: value.map .expr
  | .staticBlock statements => statements.map .statement

/-- The parts of a statement. -/
def Statement.parts : Statement → List Part
  | .expression value => [.expr value]
  | .declare _ declarators => declarators.map .pattern
  | .function f => [.function f]
  | .classOf c => [.classOf c]
  | .block statements => statements.map .statement
  | .ifElse test yes no => .expr test :: .statement yes :: no.map .statement
  | .loop init test update body =>
    init.map .statement ++ test.map .expr ++ update.map .expr ++ [.statement body]
  | .forIn _ head object body => head.map .pattern ++ [.expr object, .statement body]
  | .forOf _ _ head items body => head.map .pattern ++ [.expr items, .statement body]
  | .while test body => [.expr test, .statement body]
  | .doWhile body test => [.statement body, .expr test]
  | .return value => value.map .expr
  | .throw value => [.expr value]
  | .with object body => [.expr object, .statement body]
  | .switch value cases => .expr value :: cases.map .branch
  | .labelled _ body => [.statement body]
  | .try body param handler finalizer =>
    body.map .statement ++ param.map .pattern ++ handler.map .statement ++
      finalizer.map .statement
  | .exports declaration _ => declaration.map .statement
  | .directive _ | .empty | .debugger | .continue _ | .break _ | .imports => []

/-- The parts of a branch of a switch. -/
def Case.parts : Case → List Part
  | .branch test statements => test.map .expr ++ statements.map .statement

namespace Part

/-- The parts that a part is made of, in the order of the text. -/
def parts : Part → List Part
  | .expr e => e.parts
  | .key name => name.parts
  | .property p => p.parts
  | .pattern p => p.parts
  | .function f => f.parts
  | .classOf c => c.parts
  | .member m => m.parts
  | .statement s => s.parts
  | .branch c => c.parts
  | .body b => itemParts b.items

/-- What stands at the end of a path: each step goes to the part with that number. -/
def At (part : Part) : List Nat → Part → Prop
  | [], found => found = part
  | step :: path, found => ∃ next, part.parts[step]? = some next ∧ next.At path found

/-! ## Induction -/

/-- The size of the construct. -/
noncomputable def size : Part → Nat
  | .expr e => sizeOf e
  | .key name => sizeOf name
  | .property p => sizeOf p
  | .pattern p => sizeOf p
  | .function f => sizeOf f
  | .classOf c => sizeOf c
  | .member m => sizeOf m
  | .statement s => sizeOf s
  | .branch c => sizeOf c
  | .body b => sizeOf b

/-- The parts in a list are smaller than what holds the list. -/
theorem size_lt_of_map {α : Type} [SizeOf α] {make : α → Part}
    (hmake : ∀ a, (make a).size = sizeOf a) {list : List α} {n : Nat} (h : sizeOf list ≤ n) :
    ∀ part ∈ list.map make, part.size < n := by
  intro part hpart
  obtain ⟨a, ha, rfl⟩ := List.mem_map.1 hpart
  have hlt := List.sizeOf_lt_of_mem ha
  rw [hmake]
  omega

theorem size_lt_of_items {items : List Item} {n : Nat} (h : sizeOf items ≤ n) :
    ∀ part ∈ itemParts items, part.size < n := by
  intro part hpart
  obtain ⟨item, hitem, rfl⟩ := List.mem_map.1 hpart
  have hlt := List.sizeOf_lt_of_mem hitem
  obtain ⟨lead, text, statement⟩ := item
  simp only [Item.mk.sizeOf_spec] at hlt
  simp only [size]
  omega

theorem sizeOf_expr_pos (e : Expr) : 0 < sizeOf e := by
  refine Nat.pos_of_ne_zero ?_
  cases e <;> simp

theorem size_lt {whole : Part} : ∀ part ∈ whole.parts, part.size < whole.size := by
  cases whole with
  | expr e =>
    cases e <;> simp only [parts, Expr.parts, List.forall_mem_cons, List.not_mem_nil,
        false_implies, implies_true, and_true] <;> (try and_intros) <;>
      first
      | exact size_lt_of_map (fun _ => rfl) (by simp [size] <;> omega)
      | (simp [size] <;> omega)
  | key name =>
    cases name <;> simp [parts, Key.parts, size]
  | property p =>
    cases p with
    | pending id value =>
      have hpos := sizeOf_expr_pos value
      simp [parts, Property.parts, size]
      omega
    | _ =>
      simp [parts, Property.parts, size]
      try omega
  | pattern p =>
    cases p <;> simp only [parts, Pattern.parts, List.forall_mem_cons, List.not_mem_nil,
        false_implies, implies_true, and_true] <;> (try and_intros) <;>
      first
      | exact size_lt_of_map (fun _ => rfl) (by simp [size])
      | (simp [size] <;> omega)
  | function f =>
    obtain ⟨_, _, _, _, params, _, _, items, _⟩ := f
    simp only [parts, Function.parts, List.forall_mem_append]
    refine ⟨size_lt_of_map (fun _ => rfl) ?_, size_lt_of_items ?_⟩ <;> simp [size] <;> omega
  | classOf c =>
    obtain ⟨decorators, name, heritage, members⟩ := c
    simp only [parts, Class.parts, List.forall_mem_append]
    refine ⟨⟨size_lt_of_map (fun _ => rfl) ?_, size_lt_of_map (fun _ => rfl) ?_⟩,
      size_lt_of_map (fun _ => rfl) ?_⟩ <;> simp [size] <;> omega
  | member m =>
    cases m <;> simp only [parts, Member.parts, List.forall_mem_cons, List.forall_mem_append,
        List.not_mem_nil, false_implies, implies_true, and_true] <;> (try and_intros) <;>
      first
      | exact size_lt_of_map (fun _ => rfl) (by simp [size] <;> omega)
      | (simp [size] <;> omega)
  | statement s =>
    cases s <;> simp only [parts, Statement.parts, List.forall_mem_cons, List.forall_mem_append,
        List.not_mem_nil, false_implies, implies_true, and_true] <;> (try and_intros) <;>
      first
      | exact size_lt_of_map (fun _ => rfl) (by simp [size] <;> omega)
      | (simp [size] <;> omega)
  | branch c =>
    obtain ⟨test, statements⟩ := c
    simp only [parts, Case.parts, List.forall_mem_append]
    refine ⟨size_lt_of_map (fun _ => rfl) ?_, size_lt_of_map (fun _ => rfl) ?_⟩
    · simp [size]
      omega
    · simp [size]
  | body b =>
    obtain ⟨items, tail⟩ := b
    refine size_lt_of_items ?_
    simp [size]
    omega

/-- Induction over the parts of a part. -/
theorem induct {motive : Part → Prop}
    (h : ∀ part, (∀ inner ∈ part.parts, motive inner) → motive part) (part : Part) :
    motive part :=
  (measure size).wf.induction part fun whole ih =>
    h whole fun inner hinner => ih inner (size_lt inner hinner)

end Part

end Collector.Script
