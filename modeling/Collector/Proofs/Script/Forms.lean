import Collector.Proofs.Script.Answering
import Collector.Proofs.Script.Blanks
import Collector.Proofs.Script.Inside

/-!
# The forms in which functions are written

A function stands in a script as a function expression, as an arrow function or as a method, and
perhaps in parentheses. Wherever one is read that is neither async nor a generator, its parameter
list and its body can be cut out and are read the same in other places: `Function.Written`.
-/

namespace Collector.Script

open Text Grammar

variable {fuel level : Nat} {c c' : Cursor} {e : Expr} {f : Function}

/-! ## Expressions in parentheses -/

theorem commaList_cases {g : Grammar} {m : Mode} {first : Expr}
    (h : g.commaList m first c = some (e, c')) : e = first ∨ ∃ all, e = .sequence all := by
  unfold commaList at h
  cases hf : g.fuel with
  | zero =>
    rw [hf] at h
    cases h
  | succ n =>
    rw [hf, Parser.iterate_succ, bind_assoc] at h
    by_cases hc : c.next.token = .punctuator .comma
    · rw [(Parser.accept_accepts .comma).bind_true hc, if_pos rfl, bind_assoc] at h
      obtain ⟨second, c₁, -, h⟩ := Parser.bind_eq_some.mp h
      rw [pure_bind, Sum.elim_inl] at h
      refine .inr (Parser.Answers.iterate (I := fun items : List Expr => 2 ≤ items.length)
        (P := fun e => ∃ all, e = .sequence all) ?_ (le_refl 2) _ _ _ h)
      intro items hi
      refine .last fun comma => .ite (.last fun item => .pure ?_) (.pure ?_)
      · exact Nat.le_succ_of_le hi
      · match items, hi with
        | a :: b :: rest, _ => exact ⟨_, rfl⟩
    · rw [(Parser.accept_accepts .comma).bind_false hc] at h
      exact .inl (Parser.pure_eq_some.mp h).1.symm

/-- What stands in parentheses, however many, was read as an expression of its own. -/
theorem exists_assignment_withoutParens
    (h : (grammar fuel level).assignment Mode.script c = some (e, c'))
    (hs : ∀ all, e.withoutParens ≠ .sequence all) :
    ∃ level d d', (grammar fuel (level + 1)).assignment Mode.script d =
      some (e.withoutParens, d') := by
  induction level generalizing c e c' with
  | zero => cases h
  | succ level ih =>
    by_cases hp : ∃ text inner, e = .paren text inner
    · obtain ⟨text, inner, rfl⟩ := hp
      rcases value_of_parenthesized (parenthesized_of_assignment h) with ⟨all, rfl⟩ | ⟨d, d', hd, -⟩
      · exact (hs all rfl).elim
      · exact ih (e := inner) hd hs
    · have hsame : e.withoutParens = e := by
        cases e with
        | paren text inner => exact (hp ⟨text, inner, rfl⟩).elim
        | _ => rfl
      rw [hsame]
      exact ⟨level, c, c', h⟩

/-- The expression that a text is was read at its front, if it is no sequence. -/
theorem assignment_of_parseExpression? {text : String} {e : Expr}
    (h : parseExpression? text = some e) (hs : ∀ all, e ≠ .sequence all) :
    ∃ fuel level c', (grammar fuel (level + 1)).assignment Mode.script
      (.front .expression text.toList) = some (e, c') := by
  obtain ⟨⟨found, c₁⟩, he, h⟩ := Option.bind_eq_some_iff.mp h
  dsimp only at h
  split at h
  · obtain rfl := Option.some.inj h
    obtain ⟨first, c₂, hf, he⟩ := Parser.bind_eq_some.mp he
    rcases commaList_cases he with rfl | ⟨all, rfl⟩
    · exact ⟨_, _, c₂, hf⟩
    · exact (hs all rfl).elim
  · cases h

/-- The expression that a text is, without its parentheses, was read as one. -/
theorem exists_assignment_of_parseExpression? {source : String}
    (h : parseExpression? source = some e) (hs : ∀ all, e.withoutParens ≠ .sequence all) :
    ∃ fuel level d d', (grammar fuel (level + 1)).assignment Mode.script d =
      some (e.withoutParens, d') := by
  obtain ⟨fuel, level, c', ha⟩ := assignment_of_parseExpression? h fun all he => by
    rw [he] at hs
    exact hs all rfl
  exact ⟨fuel, exists_assignment_withoutParens ha hs⟩

/-! ## Functions that can be cut out -/

/-- How a parameter list is written: in parentheses, or as a single name. -/
inductive WritesParameters (params : List Pattern) (text : String) : Prop
  | list (h : ∃ inner, text.toList = '(' :: inner ++ [')']) (hr : ReadsParameters params text)
  | single (id : String) (hp : params = [.bind id])
    (h : ∃ first rest, text.toList = first :: rest ∧
      (first = '\\' ∨ isIdentifierStart first = true) ∧ Solid (first :: rest))
    (hr : ReadsText (fun _ => Parser.identifier Mode.plain) text id)

/-- How a body is written: as statements in braces, or as a value with its text. -/
inductive WritesBody : Option String → Body → Prop
  | block {body : Body} (h : ReadsBody body) : WritesBody none body
  | value {text : String} {value : Expr}
    (h : ReadsText (fun g => g.assignment Mode.plain) text value) :
    WritesBody (some text) ⟨[⟨"", text, .expression value⟩], ""⟩

/-- A function whose parameter list and body are read the same wherever they stand. -/
structure Function.Written (f : Function) (valueText : Option String) : Prop where
  params : WritesParameters f.params f.paramsText
  body : WritesBody valueText f.body

theorem written_of_functionRest {name : Option String} {start : List Char} {isAsync isGenerator : Bool}
    (h : (grammar fuel level).functionRest isAsync isGenerator name start c = some (f, c'))
    (ha : f.isAsync = false) (hg : f.isGenerator = false) : f.Written none := by
  obtain ⟨params, text, c₁, body, hp, hb, rfl⟩ := functionRest_eq_some.mp h
  obtain rfl : isAsync = false := ha
  obtain rfl : isGenerator = false := hg
  obtain ⟨hinner, -, hparams⟩ := readsParameters hp
  exact ⟨.list hinner hparams, .block (readsBody hb).2⟩

theorem written_of_function
    (h : (grammar fuel level).function Mode.script false c = some (f, c'))
    (ha : f.isAsync = false) (hg : f.isGenerator = false) : f.Written none := by
  replace h : (Parser.acceptWord "async" >>= (grammar fuel level).functionBehind Mode.script false
      c.next.start) c = some (f, c') := h
  obtain ⟨isAsync, c₁, -, h⟩ := Parser.bind_eq_some.mp h
  unfold functionBehind at h
  obtain ⟨_, c₂, -, h⟩ := Parser.bind_eq_some.mp h
  obtain ⟨isGenerator, c₃, -, h⟩ := Parser.bind_eq_some.mp h
  obtain ⟨sees, c₄, -, h⟩ := Parser.bind_eq_some.mp h
  split at h
  · exact written_of_functionRest h ha hg
  · obtain ⟨name, c₅, -, h⟩ := Parser.bind_eq_some.mp h
    exact written_of_functionRest h ha hg

/-- The parameters before an arrow. -/
theorem writesParameters_of_parenthesized {params : List Pattern} {text : String}
    (h : (grammar fuel level).parenthesized Mode.script c = some (.parameters params text, c')) :
    WritesParameters params text := by
  have hp := parameters_of_parenthesized (covers_grammar fuel level Mode.script) h
  have lifts : Opens .same never _ _ :=
    (agrees_same (Nat.le_refl fuel) (Nat.le_refl level)).parameters Mode.script true
  obtain ⟨hinner, -, hparams⟩ := readsParameters (lifts.follows.same hp)
  exact .list hinner hparams

/-- A single name before an arrow. -/
theorem writesParameters_of_identifier {id : String}
    (h : Parser.identifier Mode.script c = some (id, c')) :
    WritesParameters [.bind id] (slice c.next.start c'.left) := by
  obtain ⟨hstart, hr⟩ := @readsText _ _ _ _ (fun _ => Parser.identifier Mode.script)
    (fun _ => Parser.identifier Mode.plain) 0 0 (fun _ => .identifier Mode.script true) h
  obtain ⟨hid, rfl⟩ := Parser.identifier_eq_some.mp h
  obtain ⟨escaped, hword⟩ := Lexeme.identifier?_word hid
  obtain ⟨d, tail, htext, hd, hs⟩ := Cursor.word_solid hword
  refine .single id rfl ⟨d, tail, ?_, hd, hs⟩ hr
  rw [htext]
  show (slice (d :: tail ++ c.next.rest) c.next.rest).toList = d :: tail
  rw [slice_append, String.toList_ofList]

/-- An arrow function behind its parameters. -/
theorem written_of_arrowRest {params : List Pattern} {text : String} {valueText : Option String}
    (hp : WritesParameters params text)
    (h : (grammar fuel level).arrowRest Mode.script false params text c =
      some (.arrow valueText f, c')) : f.Written valueText := by
  obtain ⟨arrow, c₁, -, h⟩ := Parser.bind_eq_some.mp h
  obtain ⟨_, c₂, -, h⟩ := Parser.bind_eq_some.mp h
  obtain ⟨_, c₃, -, h⟩ := Parser.bind_eq_some.mp h
  obtain ⟨brace, c₄, -, h⟩ := Parser.bind_eq_some.mp h
  split at h
  · obtain ⟨body, c₅, hb, h⟩ := Parser.bind_eq_some.mp h
    obtain ⟨he, rfl⟩ := Parser.pure_eq_some.mp h
    obtain ⟨rfl, rfl⟩ := Expr.arrow.inj he
    exact ⟨hp, .block (readsBody hb).2⟩
  · rw [Parser.peek_bind] at h
    obtain ⟨value, c₅, hv, h⟩ := Parser.bind_eq_some.mp h
    obtain ⟨text, c₆, ht, h⟩ := Parser.bind_eq_some.mp h
    obtain ⟨rfl, rfl⟩ := Prod.mk.inj (Option.some.inj ht)
    obtain ⟨he, rfl⟩ := Parser.pure_eq_some.mp h
    obtain ⟨rfl, rfl⟩ := Expr.arrow.inj he
    exact ⟨hp, .value (readsText (p := fun g => g.assignment Mode.script)
      (q := fun g => g.assignment Mode.plain) (fun h => h.assignment Mode.script true) hv).2⟩

/-! ## The forms -/

/-- A function expression. -/
theorem written_of_functionExpression
    (h : (grammar fuel (level + 1)).assignment Mode.script c = some (.function f, c'))
    (ha : f.isAsync = false) (hg : f.isGenerator = false) : f.Written none :=
  written_of_function (function_of_assignment h) ha hg

/-- An arrow function. -/
theorem written_of_arrow {valueText : Option String}
    (h : (grammar fuel (level + 1)).assignment Mode.script c = some (.arrow valueText f, c'))
    (ha : f.isAsync = false) : f.Written valueText := by
  cases assignmentExpression_whole h rfl with
  | operand h =>
    rcases primary_whole h rfl with ⟨_, he, -⟩ | ⟨_, _, he, -⟩ | ⟨_, _, he, -⟩ | ⟨_, he, -⟩ |
      ⟨_, _, he, -⟩
    all_goals cases he
  | parens h =>
    obtain ⟨_, _, he⟩ := parenthesized_value h
    cases he
  | single h =>
    replace h : (Parser.identifier Mode.script >>= fun id => Parser.textFrom c.next.start >>=
        fun text => (grammar fuel level).arrowRest Mode.script false [.bind id] text) c =
        some (.arrow valueText f, c') := h
    obtain ⟨id, c₁, hi, h⟩ := Parser.bind_eq_some.mp h
    exact written_of_arrowRest (writesParameters_of_identifier hi) h
  | arrow params text c₁ hp h => exact written_of_arrowRest (writesParameters_of_parenthesized hp) h
  | asyncArrow value f' he hf =>
    obtain ⟨-, rfl⟩ := Expr.arrow.inj he
    cases ha.symm.trans hf
  | assign _ _ _ h =>
    obtain ⟨_, _, -, -, -, -, he⟩ := h
    cases he
  | store _ _ _ he => cases he

/-- The only method of an object. -/
theorem written_of_method {key : Key} {text : String} {comma : Bool}
    (h : (grammar fuel (level + 1)).assignment Mode.script c =
      some (.object [.method key f text] comma, c'))
    (ha : f.isAsync = false) (hg : f.isGenerator = false) : f.Written none := by
  obtain ⟨d, d', hd⟩ := property_of_assignment h (List.mem_singleton_self _)
  rcases property_cases hd with ⟨_, -, he, -⟩ | ⟨-, mods, c₁, key', c₂, -, -, hr⟩
  · cases he
  · have hf : (grammar fuel level).functionRest mods.isAsync mods.isGenerator none
        c₂.next.start c₂ = some (f, d') := (method_of_propertyRest hr).1
    exact written_of_functionRest hf ha hg

/-! ## Parameter lists -/

/-- No parameter begins with a parenthesis. -/
theorem parameters_doubled {m : Mode} {rest : List Char} :
    (grammar fuel level).parameters m (.front .inside ('(' :: '(' :: rest)) = none := by
  have hopen (text : List Char) : (Cursor.front .inside ('(' :: text)).next =
      ⟨.punctuator .openParen, false, '(' :: text, text⟩ := next_of_bracket (by decide) text
  have hbinding : (grammar fuel level).binding m (.front .inside ('(' :: rest)) = none := by
    cases level with
    | zero => rfl
    | succ level =>
      show (grammar fuel level).bindingTarget m _ = none
      unfold bindingTarget
      rw [(Parser.accept_accepts .openBracket).bind_false (by rw [hopen]; nofun),
        if_neg Bool.false_ne_true,
        (Parser.accept_accepts .openBrace).bind_false (by rw [hopen]; nofun),
        if_neg Bool.false_ne_true]
      refine Parser.bind_of_none (Option.eq_none_iff_forall_ne_some.mpr ?_)
      rintro ⟨id, c'⟩ hi
      obtain ⟨escaped, hword⟩ := Lexeme.identifier?_word (Parser.identifier_eq_some.mp hi).1
      rw [hopen] at hword
      cases hword
  have hparameter : (grammar fuel level).parameter m (.front .inside ('(' :: rest)) = none := by
    unfold parameter
    rw [Parser.sees_bind, Parser.peek_bind, if_neg (by rw [hopen]; nofun)]
    exact Parser.bind_of_none hbinding
  refine Option.eq_none_iff_forall_ne_some.mpr ?_
  rintro ⟨⟨params, text⟩, c'⟩ hp
  obtain ⟨-, -, k, -, comma, hl⟩ := parameters_iff_listed.mp hp
  rw [hopen] at hl
  cases hl with
  | done h =>
    rw [hopen] at h
    cases h
  | more _ ha => cases hparameter.symm.trans ha
  | last _ ha => cases hparameter.symm.trans ha

/-- A name without a default is a parameter. -/
theorem parameter_of_identifier {g : Grammar} {m : Mode} {id : String} (n : Nat)
    (hi : Parser.identifier m c = some (id, c')) (ha : c'.next.token ≠ .punctuator .assign) :
    (g.above n).parameter m c = some (.bind id, c') := by
  obtain ⟨escaped, hword⟩ := Lexeme.identifier?_word (Parser.identifier_eq_some.mp hi).1
  have hbinding : (g.above n).binding m c = some (.bind id, c') := bindingTarget_of_identifier hi
  unfold parameter
  rw [Parser.sees_bind, Parser.peek_bind, if_neg (by simp [Lexeme.is, hword])]
  exact (Parser.bind_of_eq_some hbinding).trans (withDefault_none ha _)

/-- A single name in parentheses is a parameter list. -/
theorem readsParameters_single {id : String} {text : String}
    (h : ReadsText (fun _ => Parser.identifier Mode.plain) text id) :
    ReadsParameters [.bind id] ("(" ++ text ++ ")") := by
  intro rest
  obtain ⟨hstart, hr⟩ := h .paren rest
  rw [show Closer.paren.char = ')' from rfl] at hstart hr
  have hi : Parser.identifier Mode.plain (.front .inside (text.toList ++ ')' :: rest)) =
      some (id, .front .inside (')' :: rest)) := hr.exists.choose_spec
  obtain ⟨escaped, hword⟩ := Lexeme.identifier?_word (Parser.identifier_eq_some.mp hi).1
  have hclose : (Cursor.front .inside (')' :: rest)).next =
      ⟨.punctuator .closeParen, false, ')' :: rest, rest⟩ := next_of_bracket (by decide) rest
  have hwhole : ("(" ++ text ++ ")").toList ++ rest = '(' :: (text.toList ++ ')' :: rest) := by simp
  have hopen : (Cursor.front .inside ('(' :: (text.toList ++ ')' :: rest))).next =
      ⟨.punctuator .openParen, false, '(' :: (text.toList ++ ')' :: rest),
        text.toList ++ ')' :: rest⟩ := next_of_bracket (by decide) _
  filter_upwards [eventually_above (Filter.Eventually.of_forall fun _ => trivial) 1]
  rintro _ ⟨g, fuel, -, hf, rfl⟩
  have hparameter : (g.above fuel).parameter Mode.plain (.front .inside (text.toList ++ ')' :: rest)) =
      some (.bind id, .front .inside (')' :: rest)) :=
    parameter_of_identifier fuel hi (by simp [hclose])
  rw [hwhole, parameters_iff_listed, hopen]
  have hl : Listed .closeParen ((g.above fuel).parameter Mode.plain) 1 false
      (.front .inside (text.toList ++ ')' :: rest)) [.bind id] false
      (.front .inside (Cursor.front .inside (')' :: rest)).next.rest) :=
    .last (by simp [hword]) hparameter (by simp [hclose]) (by rw [hclose])
  rw [hclose] at hl
  refine ⟨rfl, ?_, 1, hf, false, hl⟩
  rw [show '(' :: (text.toList ++ ')' :: rest) = ("(" ++ text ++ ")").toList ++ rest from
    hwhole.symm]
  exact (slice_append _ _).symm ▸ (String.ofList_toList).symm

end Collector.Script
