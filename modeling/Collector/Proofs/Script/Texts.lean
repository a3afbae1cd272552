import Collector.Proofs.Script.Declarations
import Collector.Proofs.Script.Wholes

/-!
# What functions and scripts keep of their texts

A function holds the text that it was read from, whatever its form (`function_source`), and so does
a script (`parseScript?_source`). No production for a statement answers a function declaration but
the one for it, so the text of an item that declares a function is the text of that function
(`text_of_function`); and an item that is an expression was read as one (`expression_of_body`).
-/

namespace Collector.Script

open Relation Grammar

variable {fuel level : Nat} {m : Mode} {c c' : Cursor} {f : Function} {g : Grammar}

/-! ## Functions -/

theorem parameters_text {params : List Pattern} {text : String}
    (h : (grammar fuel level).parameters m c = some ((params, text), c')) :
    c.next.start = text.toList ++ c'.left := by
  have hopens : Opens .same never _ _ :=
    (agrees_same (Nat.le_refl fuel) (Nat.le_refl level)).parameters m false
  have hsuffix := suffix_of_moves_taken (hopens.moves h)
  obtain ⟨-, _, e, -, -, rfl, rfl⟩ := parameters_eq_some.mp h
  exact (toList_slice hsuffix).symm

theorem functionBody_text {body : Body}
    (h : (grammar fuel level).functionBody m c = some (body, c')) :
    c.next.start = body.block.toList ++ c'.left := by
  obtain ⟨ht, e, hb, he, rfl⟩ := functionBody_eq_some.mp h
  have hinside : c.next.rest = body.source.toList ++ e.next.start := body_source hb
  rw [Cursor.start_of_bracket (c := '\x7b') (by decide) ht, hinside,
    Cursor.start_of_bracket (mem_brackets .brace) he]
  simp [Body.block, Cursor.front, Closer.char]

/-- The parts of a function, put together, are the text from its beginning up to its end. -/
theorem functionRest_source {isAsync isGenerator : Bool} {name : Option String} {start : List Char}
    (h : (grammar fuel level).functionRest isAsync isGenerator name start c = some (f, c'))
    (hstart : c.next.start <:+ start) : start = f.source.toList ++ c'.left := by
  obtain ⟨params, text, c₁, body, hp, hb, rfl⟩ := functionRest_eq_some.mp h
  calc start
    _ = (slice start c.next.start).toList ++ c.next.start := (toList_slice hstart).symm
    _ = (slice start c.next.start).toList ++ (text.toList ++
          ((slice c₁.left c₁.next.start).toList ++ c₁.next.start)) := by
      rw [toList_slice c₁.start_suffix, ← parameters_text hp]
    _ = _ := by
      rw [functionBody_text hb]
      simp [Function.source, Function.body, Body.block, Body.source]

theorem Accepts.suffix {token : Token} {p : Parser Bool} (h : Accepts token p) {accepted : Bool}
    (hp : p c = some (accepted, c')) : c'.left <:+ c.left := by
  rw [h.run] at hp
  split at hp
  next ht =>
    obtain ⟨-, rfl⟩ := Prod.mk.inj (Option.some.inj hp)
    exact (c.rest_suffix (by rw [ht]; exact h.real)).trans c.start_suffix
  · obtain ⟨-, rfl⟩ := Prod.mk.inj (Option.some.inj hp)
    exact List.suffix_rfl

/-- Behind a word that may be taken stands one that is. -/
theorem suffix_of_words {first second : String} {accepted : Bool} {u : Unit} {c₁ c₂ : Cursor}
    (h : Parser.acceptWord first c = some (accepted, c₁))
    (h' : Parser.expectWord second c₁ = some (u, c₂)) : c₂.left <:+ c.next.start := by
  obtain ⟨hw, rfl⟩ := Parser.expectWord_eq_some.mp h'
  have hrest : c₁.next.rest <:+ c₁.next.start := c₁.rest_suffix (by rw [hw]; rfl)
  rw [(Parser.acceptWord_accepts first).run] at h
  split at h
  next ht =>
    obtain ⟨-, rfl⟩ := Prod.mk.inj (Option.some.inj h)
    exact (hrest.trans (Cursor.start_suffix _)).trans (c.rest_suffix (by rw [ht]; rfl))
  · obtain ⟨-, rfl⟩ := Prod.mk.inj (Option.some.inj h)
    exact hrest

/-- A function is read from its first keyword on. -/
theorem functionRest_of_function {isDeclaration : Bool}
    (h : (grammar fuel level).function m isDeclaration c = some (f, c')) :
    ∃ isAsync isGenerator name d, d.next.start <:+ c.next.start ∧
      (grammar fuel level).functionRest isAsync isGenerator name c.next.start d = some (f, c') := by
  replace h : (Parser.acceptWord "async" >>= (grammar fuel level).functionBehind m isDeclaration
      c.next.start) c = some (f, c') := h
  obtain ⟨isAsync, c₁, hasync, h⟩ := Parser.bind_eq_some.mp h
  unfold functionBehind at h
  obtain ⟨_, c₂, hkeyword, h⟩ := Parser.bind_eq_some.mp h
  obtain ⟨isGenerator, c₃, hstar, h⟩ := Parser.bind_eq_some.mp h
  have hsuffix : c₃.left <:+ c.next.start :=
    ((Parser.accept_accepts .star).suffix hstar).trans (suffix_of_words hasync hkeyword)
  rw [Parser.sees_bind, Parser.peek_bind] at h
  split at h
  · exact ⟨isAsync, isGenerator, none, c₃, c₃.start_suffix.trans hsuffix, h⟩
  · obtain ⟨name, c₄, hname, h⟩ := Parser.bind_eq_some.mp h
    rw [Parser.map_eq_bind] at hname
    obtain ⟨id, c₅, hid, hname⟩ := Parser.bind_eq_some.mp hname
    obtain ⟨-, rfl⟩ := Parser.pure_eq_some.mp hname
    obtain ⟨hword, rfl⟩ := Parser.identifier_eq_some.mp hid
    have hreal : c₃.next.token.isReal = true := by
      obtain ⟨_, hw⟩ := Lexeme.identifier?_word hword
      rw [hw]
      rfl
    exact ⟨isAsync, isGenerator, name, _, (Cursor.start_suffix _).trans
      (((c₃.rest_suffix hreal).trans c₃.start_suffix).trans hsuffix), h⟩

theorem function_source {isDeclaration : Bool}
    (h : (grammar fuel level).function m isDeclaration c = some (f, c')) :
    c.next.start = f.source.toList ++ c'.left := by
  obtain ⟨_, _, _, d, hstart, hf⟩ := functionRest_of_function h
  exact functionRest_source hf hstart

/-! ## Scripts -/

/-- The texts of a script's statements, put together, are its text. -/
theorem parseScript?_source {source : String} {body : Body} (h : parseScript? source = some body) :
    body.source = source := by
  obtain ⟨e, hb, he, -⟩ := parseScript?_eq_some h
  have htext := body_source hb
  rw [Cursor.start_of_finish he, List.append_nil] at htext
  exact String.toList_inj.mp htext.symm

/-! ## Ordinary statements -/

/-- A statement that is no function declaration. Where it is an expression, it was read as one,
unless it is a single name. -/
def Statement.IsOrdinary (g : Grammar) (m : Mode) : Statement → Prop
  | .function _ => False
  | .expression e => (∃ id, e = .name id) ∨ ∃ d d', g.expression m.withIn d = some (e, d')
  | _ => True

/-- A parser that answers ordinary statements only. -/
abbrev Ordinary (g : Grammar) (m : Mode) (p : Parser Statement) : Prop :=
  p.Answers (Statement.IsOrdinary g m)

open Parser.Answers

theorem declaration_ordinary (kind : DeclarationKind) :
    Ordinary g m (g.declaration m kind) := by
  unfold declaration
  exact .last fun _ => .last fun _ => .last fun _ => .pure trivial

theorem expressionStatement_ordinary : Ordinary g m (g.expressionStatement m) := by
  have read : (g.expression m.withIn).Answers fun e => ∃ d d', g.expression m.withIn d = some (e, d') :=
    fun c e c' h => ⟨c, c', h⟩
  refine .bind read fun e he => ?_
  split
  · exact .last fun _ => .ite (.last fun _ => .pure trivial) (.last fun _ => .pure (.inr he))
  · exact .last fun _ => .pure (.inr he)

theorem letStatement_ordinary (inList : Bool) : Ordinary g m (g.letStatement m inList) := by
  unfold letStatement
  refine .last fun _ => .ite expressionStatement_ordinary (.last fun _ => .ite ?_ ?_)
  · exact .last fun _ => .pure (.inl ⟨_, rfl⟩)
  · exact .last fun _ => declaration_ordinary _

theorem classStatement_ordinary (inList : Bool) :
    Ordinary g m (g.classStatement m inList) := by
  unfold classStatement
  exact .last fun _ => .last fun _ => .pure trivial

theorem ifStatement_ordinary : Ordinary g m (g.ifStatement m) := by
  unfold ifStatement
  refine .last fun _ => .last fun _ => .last fun _ => .last fun _ => .ite ?_ ?_
  · exact .last fun _ => .pure trivial
  · exact .last fun _ => .pure trivial

theorem whileStatement_ordinary : Ordinary g m (g.whileStatement m) := by
  unfold whileStatement
  exact .last fun _ => .last fun _ => .last fun _ => .pure trivial

theorem doStatement_ordinary : Ordinary g m (g.doStatement m) := by
  unfold doStatement
  exact .last fun _ => .last fun _ => .last fun _ => .last fun _ => .last fun _ => .pure trivial

theorem loopRest_ordinary (init : List Statement) : Ordinary g m (g.loopRest m init) := by
  unfold loopRest
  exact .last fun _ => .last fun _ => .last fun _ => .last fun _ => .pure trivial

theorem forInRest_ordinary (kind : Option DeclarationKind) (head : List Pattern) :
    Ordinary g m (g.forInRest m kind head) := by
  unfold forInRest
  exact .last fun _ => .last fun _ => .last fun _ => .pure trivial

theorem forOfRest_ordinary (isAwait : Bool) (kind : Option DeclarationKind)
    (head : List Pattern) : Ordinary g m (g.forOfRest m isAwait kind head) := by
  unfold forOfRest
  exact .last fun _ => .last fun _ => .last fun _ => .pure trivial

theorem forDeclared_ordinary (isAwait : Bool) (kind : DeclarationKind) :
    Ordinary g m (g.forDeclared m isAwait kind) := by
  unfold forDeclared
  refine .last fun _ => .last fun _ => .last fun _ => .ite ?_ (.last fun _ => .ite ?_ ?_)
  · exact .last fun _ => forInRest_ordinary _ _
  · exact forOfRest_ordinary _ _ _
  · exact .last fun _ => loopRest_ordinary _

theorem forExpression_ordinary (isAwait : Bool) :
    Ordinary g m (g.forExpression m isAwait) := by
  unfold forExpression
  refine .last fun _ => .last fun _ => .last fun _ => .last fun _ => .ite ?_
    (.last fun _ => .ite ?_ ?_)
  · exact .last fun _ => .last fun _ => forInRest_ordinary _ _
  · exact .last fun _ => .last fun _ => forOfRest_ordinary _ _ _
  · exact .last fun _ => loopRest_ordinary _

theorem forStatement_ordinary : Ordinary g m (g.forStatement m) := by
  unfold forStatement
  refine .last fun _ => .last fun _ => .last fun _ => .last fun _ => .last fun _ => .ite ?_ ?_
  · exact .last fun _ => loopRest_ordinary _
  · refine .last fun kind => ?_
    split
    · exact forDeclared_ordinary _ _
    · exact forExpression_ordinary _

theorem returnStatement_ordinary : Ordinary g m (g.returnStatement m) := by
  unfold returnStatement
  refine .last fun _ => .last fun _ => .last fun _ => .ite ?_ ?_
  · exact .last fun _ => .last fun _ => .pure trivial
  · exact .last fun _ => .last fun _ => .pure trivial

theorem throwStatement_ordinary : Ordinary g m (g.throwStatement m) := by
  unfold throwStatement
  exact .last fun _ => .last fun _ => .last fun _ => .last fun _ => .last fun _ => .pure trivial

theorem switchStatement_ordinary : Ordinary g m (g.switchStatement m) := by
  unfold switchStatement
  refine .last fun _ => .last fun value => .last fun _ => .iterate (I := fun _ => True) ?_ trivial
  exact fun cases _ => .last fun closes => .ite (.pure trivial) (.last fun _ => .pure trivial)

theorem tryStatement_ordinary : Ordinary g m (g.tryStatement m) := by
  unfold tryStatement
  refine .last fun _ => .last fun _ => .last fun handled => ?_
  refine .ite (.last fun _ => ?_) (.last fun _ => ?_)
  all_goals refine .ite (.last fun _ => ?_) (.last fun _ => ?_)
  all_goals refine .last fun _ => .ite ?_ ?_
  all_goals exact .last fun _ => .last fun _ => .pure trivial

theorem withStatement_ordinary : Ordinary g m (g.withStatement m) := by
  unfold withStatement
  exact .last fun _ => .last fun _ => .last fun _ => .pure trivial

theorem importStatement_ordinary : Ordinary g m (g.importStatement m) := by
  have rest : Ordinary g m (g.importRest m) := by
    unfold importRest
    refine .last fun next => ?_
    split
    · exact .last fun _ => .pure trivial
    · refine .last fun _ => .last fun _ => .last fun _ => .ite ?_ ?_
      · exact .last fun _ => .last fun _ => .pure trivial
      · refine .last fun _ => .last fun _ => .ite ?_ ?_
        · exact .last fun _ => .last fun _ => .pure trivial
        · exact .last fun _ => .pure trivial
  unfold importStatement
  exact .last fun _ => .ite expressionStatement_ordinary (.last fun _ => rest)

theorem exportStatement_ordinary : Ordinary g m (g.exportStatement m) := by
  unfold exportStatement
  refine .last fun _ => .last fun _ => .ite ?_ (.last fun _ => .ite ?_ (.last fun _ => .ite ?_ ?_))
  · exact .last fun _ => .pure trivial
  · refine .last fun _ => .ite ?_ ?_
    · exact .last fun _ => .last fun _ => .pure trivial
    · exact .last fun _ => .pure trivial
  · refine .last fun _ => .last fun _ => .ite ?_ ?_
    · exact .last fun _ => .pure trivial
    · exact .last fun _ => .pure trivial
  · exact .last fun _ => .last fun _ => .pure trivial

/-- A statement that a word begins is ordinary, or a function declaration. -/
theorem wordStatement_cases {inList : Bool} {word : String} {s : Statement}
    (h : g.wordStatement m inList word c = some (s, c')) :
    s.IsOrdinary g m ∨ g.functionStatement m inList c = some (s, c') := by
  have ordinary {p : Parser Statement} (h : p c = some (s, c')) (hp : Ordinary g m p) :
      s.IsOrdinary g m ∨ g.functionStatement m inList c = some (s, c') := .inl (hp _ _ _ h)
  unfold wordStatement at h
  split at h
  · exact ordinary h ifStatement_ordinary
  · exact ordinary h doStatement_ordinary
  · exact ordinary h whileStatement_ordinary
  · exact ordinary h forStatement_ordinary
  · exact ordinary h (.last fun _ => .last fun _ => .pure trivial)
  · exact ordinary h (.last fun _ => .last fun _ => .pure trivial)
  · exact ordinary h withStatement_ordinary
  · exact ordinary h switchStatement_ordinary
  · exact ordinary h throwStatement_ordinary
  · exact ordinary h tryStatement_ordinary
  · exact ordinary h (.last fun _ => .last fun _ => .pure trivial)
  · exact ordinary h (classStatement_ordinary _)
  · exact ordinary h exportStatement_ordinary
  · exact ordinary h importStatement_ordinary
  · exact ordinary h returnStatement_ordinary
  · exact ordinary h (letStatement_ordinary _)
  · exact ordinary h (.last fun _ => declaration_ordinary _)
  · exact ordinary h (.last fun _ => .last fun _ => declaration_ordinary _)
  · rw [Parser.bind_of_eq_some (seesFunction_eq c)] at h
    split at h
    · exact .inr h
    · refine ordinary h (.last fun kind => ?_)
      split
      · exact .last fun _ => .last fun _ => declaration_ordinary _
      · exact expressionStatement_ordinary

/-- So is any statement. -/
theorem anyStatement_cases {inList : Bool} {s : Statement}
    (h : g.anyStatement m inList c = some (s, c')) :
    s.IsOrdinary g m ∨ g.functionStatement m inList c = some (s, c') := by
  have ordinary {p : Parser Statement} (h : p c = some (s, c')) (hp : Ordinary g m p) :
      s.IsOrdinary g m ∨ g.functionStatement m inList c = some (s, c') := .inl (hp _ _ _ h)
  rw [anyStatement, Parser.peek_bind] at h
  generalize c.next = l at h
  obtain ⟨token, newline, start, rest⟩ := l
  cases token with
  | word word escaped =>
    cases escaped with
    | false => exact wordStatement_cases h
    | true => exact ordinary h expressionStatement_ordinary
  | punctuator p =>
    cases p with
    | openBrace => exact ordinary h (.last fun _ => .pure trivial)
    | semicolon => exact ordinary h (.last fun _ => .pure trivial)
    | «at» => exact ordinary h (classStatement_ordinary _)
    | _ => exact ordinary h expressionStatement_ordinary
  | _ => exact ordinary h expressionStatement_ordinary

/-- The production for function declarations answers functions with a name. -/
theorem functionStatement_cases {inList : Bool} {s : Statement}
    (h : g.functionStatement m inList c = some (s, c')) :
    ∃ f, s = .function f ∧ g.function m true c = some (f, c') ∧ f.name.isSome = true := by
  obtain ⟨f, c₁, hf, h⟩ := Parser.bind_eq_some.mp h
  simp only [Parser.bind_eq_some, Parser.check_eq_some, Parser.pure_eq_some] at h
  obtain ⟨-, _, ⟨hname, rfl⟩, -, _, ⟨-, rfl⟩, rfl, rfl⟩ := h
  exact ⟨f, rfl, hf, hname⟩

/-- Only the production for function declarations answers one. -/
theorem function_of_anyStatement {inList : Bool}
    (h : g.anyStatement m inList c = some (.function f, c')) :
    g.function m true c = some (f, c') ∧ f.name.isSome = true := by
  rcases anyStatement_cases h with ordinary | h
  · exact ordinary.elim
  · obtain ⟨f', hsame, hf⟩ := functionStatement_cases h
    rwa [Statement.function.inj hsame]

/-- A statement that is an expression was read as one, unless it is a single name. -/
theorem expression_of_anyStatement {inList : Bool} {e : Expr}
    (h : g.anyStatement m inList c = some (.expression e, c')) :
    (∃ id, e = .name id) ∨ ∃ d d', g.expression m.withIn d = some (e, d') := by
  rcases anyStatement_cases h with ordinary | h
  · exact ordinary
  · obtain ⟨f, hsame, -⟩ := functionStatement_cases h
    cases hsame

/-- An item has the text of its statement, and says the same unless it is a directive. -/
theorem itemOf_cases (prologue : Bool) (c : Cursor) (s : Statement) (c' : Cursor) :
    (itemOf prologue c s c').1.text = slice c.next.start c'.left ∧
      ((itemOf prologue c s c').1.statement = s ∨
        ∃ quoted, (itemOf prologue c s c').1.statement = .directive quoted) := by
  unfold itemOf
  dsimp only
  split
  next directive hd =>
    refine ⟨rfl, .inr ?_⟩
    split at hd
    · split at hd
      · unfold directive? at hd
        split at hd
        · exact ⟨_, (Option.some.inj hd).symm⟩
        · cases hd
      · cases hd
    · cases hd
  · exact ⟨rfl, .inl rfl⟩

/-- An item that is no directive was read as its statement. -/
theorem statement_of_item {p q : Prefix × Cursor} {x : Item × Bool}
    (hx : (grammar fuel level).item m p.1.2 p.2 = some (x, q.2))
    (hd : ∀ quoted, x.1.statement ≠ .directive quoted) :
    x.1.text = slice p.2.next.start q.2.left ∧
      ∃ level, (grammar fuel level).anyStatement m true p.2 = some (x.1.statement, q.2) := by
  obtain ⟨s, hs, rfl⟩ := item_eq_some.mp hx
  obtain ⟨htext, hsame | ⟨quoted, hdirective⟩⟩ := itemOf_cases p.1.2 p.2 s q.2
  · rw [hsame]
    cases level with
    | zero => cases hs
    | succ level => exact ⟨htext, level, hs⟩
  · exact absurd hdirective (hd quoted)

/-- So was every item of a body that is no directive. -/
theorem statement_of_body {body : Body} (h : (grammar fuel level).body m c = some (body, c'))
    {item : Item} (hitem : item ∈ body.items) (hd : ∀ quoted, item.statement ≠ .directive quoted) :
    ∃ level d d', item.text = slice d.next.start d'.left ∧
      (grammar fuel level).anyStatement m true d = some (item.statement, d') := by
  obtain ⟨q, hq, -, -, rfl⟩ := reads_of_body h
  have hall : ∀ item ∈ q.1.1, (∀ quoted, item.statement ≠ .directive quoted) →
      ∃ level d d', item.text = slice d.next.start d'.left ∧
        (grammar fuel level).anyStatement m true d = some (item.statement, d') := by
    clear h hitem
    induction hq with
    | refl => nofun
    | tail _ hr ih =>
      obtain ⟨-, x, hx, hstate⟩ := hr
      rw [hstate]
      refine List.forall_mem_cons.mpr ⟨fun hd => ?_, ih⟩
      obtain ⟨htext, level, hs⟩ := statement_of_item hx hd
      exact ⟨level, _, _, htext, hs⟩
  exact hall item (List.mem_reverse.mp hitem) hd

theorem text_of_anyStatement {inList : Bool}
    (h : (grammar fuel level).anyStatement m inList c = some (.function f, c')) :
    slice c.next.start c'.left = f.source := by
  rw [function_source (function_of_anyStatement h).1, slice_append, String.ofList_toList]

/-- An item that declares a function was read as that function, and has its text. -/
theorem function_of_item {p q : Prefix × Cursor} {x : Item × Bool}
    (hx : (grammar fuel level).item m p.1.2 p.2 = some (x, q.2))
    (hf : x.1.statement = .function f) :
    x.1.text = f.source ∧ f.name.isSome = true ∧
      ∃ level, (grammar fuel level).function m true p.2 = some (f, q.2) := by
  obtain ⟨htext, level, hs⟩ := statement_of_item hx (by rw [hf]; nofun)
  rw [hf] at hs
  obtain ⟨hfunction, hname⟩ := function_of_anyStatement hs
  exact ⟨htext.trans (text_of_anyStatement hs), hname, level, hfunction⟩

/-- So was every item of a body that declares a function. -/
theorem function_of_body {body : Body} (h : (grammar fuel level).body m c = some (body, c'))
    {item : Item} (hitem : item ∈ body.items) (hf : item.statement = .function f) :
    item.text = f.source ∧ f.name.isSome = true ∧
      ∃ level d d', (grammar fuel level).function m true d = some (f, d') := by
  obtain ⟨level, d, d', htext, hs⟩ := statement_of_body h hitem (by rw [hf]; nofun)
  rw [hf] at hs
  obtain ⟨hfunction, hname⟩ := function_of_anyStatement hs
  exact ⟨htext.trans (text_of_anyStatement hs), hname, level, d, d', hfunction⟩

/-- An item that is an expression was read as one, unless it is a single name. -/
theorem expression_of_body {body : Body} (h : (grammar fuel level).body m c = some (body, c'))
    {item : Item} (hitem : item ∈ body.items) {e : Expr} (he : item.statement = .expression e) :
    (∃ id, e = .name id) ∨
      ∃ level d d', (grammar fuel level).expression m.withIn d = some (e, d') := by
  obtain ⟨level, d, d', -, hs⟩ := statement_of_body h hitem (by rw [he]; nofun)
  rw [he] at hs
  exact (expression_of_anyStatement hs).imp_right fun hread => ⟨level, hread⟩

/-- The items in the body of a function that declare functions have the texts of these. -/
theorem text_of_function {isDeclaration : Bool} {item : Item} {d : Function}
    (h : (grammar fuel level).function m isDeclaration c = some (f, c')) (hitem : item ∈ f.items)
    (hd : item.statement = .function d) : item.text = d.source := by
  obtain ⟨_, _, _, _, -, hf⟩ := functionRest_of_function h
  obtain ⟨params, text, c₁, body, -, hb, rfl⟩ := functionRest_eq_some.mp hf
  obtain ⟨-, e, hb, -⟩ := functionBody_eq_some.mp hb
  exact (function_of_body hb hitem hd).1

end Collector.Script
