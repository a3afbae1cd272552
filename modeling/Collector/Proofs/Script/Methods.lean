import Collector.Proofs.Script.Alone
import Collector.Proofs.Script.Forms

/-!
# Methods that are read as expressions

The text of a method can stand in an object only. Read as an expression it is a call, an operator or
nothing at all, but for one case: a method whose name is the word `function` reads as a function
expression, with the parameters and the body of the method (`function_of_method`). No method reads
as an arrow function that is not async, since a brace and not an arrow stands behind its parameters;
to see this for a method called `async`, its parameters are compared with the arguments that the
call of `async` takes (`parameters_of_arguments`). In braces the text reads as an object with the
method in it (`parseExpression?_object`).
-/

namespace Collector.Script

open Grammar

variable {α : Type} {fuel level fuel' level' : Nat} {c c' : Cursor}

/-- What two grammars read at one place is the same if a larger grammar reads both. -/
theorem eq_of_reads {p q r : Grammar → Parser α} {x y : α × Cursor}
    (hp : ∀ {g g' : Grammar}, Agrees .same g g' → Follows .same never (p g) (r g'))
    (hq : ∀ {g g' : Grammar}, Agrees .same g g' → Follows .same never (q g) (r g'))
    (h : p (grammar fuel level) c = some x) (h' : q (grammar fuel' level') c = some y) : x = y := by
  obtain ⟨a, c₁⟩ := x
  obtain ⟨b, c₂⟩ := y
  obtain ⟨g, hg, hg'⟩ := ((eventually_reads hp h).and (eventually_reads hq h')).exists
  exact Option.some.inj (hg.symm.trans hg')

namespace Grammar

variable {g : Grammar} {m : Mode} {f : Function}

/-! ## Arguments that stand for parameters -/

theorem element_cases {e : Expr} (h : g.element m c = some (e, c')) :
    (∃ items, c.next.token = .punctuator .ellipsis ∧ e = .spread items ∧
        g.assignment m.withIn (.front .inside c.next.rest) = some (items, c')) ∨
      c.next.token ≠ .punctuator .ellipsis ∧ g.assignment m.withIn c = some (e, c') := by
  unfold element at h
  by_cases he : c.next.token = .punctuator .ellipsis
  · rw [(Parser.accept_accepts .ellipsis).bind_true he] at h
    obtain ⟨items, c₁, hi, h⟩ := Parser.bind_eq_some.mp h
    obtain ⟨rfl, rfl⟩ := Parser.pure_eq_some.mp h
    exact .inl ⟨items, he, rfl, hi⟩
  · rw [(Parser.accept_accepts .ellipsis).bind_false he] at h
    exact .inr ⟨he, h⟩

theorem parameter_of_rest {pattern : Pattern} (h : c.next.token = .punctuator .ellipsis)
    (hb : g.binding m (.front .inside c.next.rest) = some (pattern, c'))
    (hs : c'.next.token = .punctuator .closeParen) :
    g.parameter m c = some (.rest pattern, c') := by
  unfold parameter
  rw [Parser.sees_bind, Parser.peek_bind, if_pos (by simp [Lexeme.is, h]),
    Parser.bind_of_eq_some (bindingRest_of_binding h hb)]
  exact sees_check hs _

theorem parameter_of_item {pattern : Pattern} (h : c.next.token ≠ .punctuator .ellipsis)
    (hb : g.bindingItem m c = some (pattern, c')) : g.parameter m c = some (pattern, c') := by
  unfold parameter
  rw [Parser.sees_bind, Parser.peek_bind, if_neg (by simp [Lexeme.is, h])]
  exact hb

/-- The flag tells of a comma behind the last item, where that item spreads. -/
theorem listed_parameter_of_element (hg : g.Covers m) {k : Nat} {before comma flag : Bool}
    {items : List Expr}
    (h : Listed .closeParen (g.element m) k before c items comma c')
    {targets patterns : List Pattern} (ht : targetItems? flag items = some targets)
    (hp : bindings? targets = some patterns)
    (hflag : comma = true → flag = false → ∀ e, items.getLast? ≠ some (.spread e)) :
    Listed .closeParen (g.parameter m) k before c patterns comma c' := by
  induction h generalizing targets patterns with
  | done h =>
    cases ht
    cases hp
    exact .done h
  | @more n before comma c c₁ c' e rest h ha hc hr ih =>
    rcases element_cases ha with ⟨items, hd, rfl, hi⟩ | ⟨hd, he⟩
    · -- A comma stands behind what spreads.
      obtain ⟨rfl, rfl, -⟩ := targetItems?_spread ht
      cases hr
      exact (hflag rfl rfl items rfl).elim
    · rw [targetItems?_bare (hg.bare he)] at ht
      obtain ⟨target, hte, ht⟩ := Option.bind_eq_some_iff.mp ht
      obtain ⟨targets, hts, ht⟩ := Option.bind_eq_some_iff.mp ht
      obtain rfl := Option.some.inj ht
      obtain ⟨q, qs, hq, hqs, rfl⟩ := bindings?_cons_eq_some hp
      refine .more h (parameter_of_item hd (hg.item he hte hq)) hc
        (ih hts hqs fun hcomma hf x hx => hflag hcomma hf x ?_)
      rw [List.getLast?_cons, hx]
      rfl
  | @last before c c₁ e h ha hc hs =>
    rcases element_cases ha with ⟨items, hd, rfl, hi⟩ | ⟨hd, he⟩
    · obtain ⟨-, -, target, hte, hd', rfl⟩ := targetItems?_spread ht
      obtain ⟨q, qs, hq, hqs, rfl⟩ := bindings?_cons_eq_some hp
      obtain ⟨pattern, hb, rfl⟩ := Option.map_eq_some_iff.mp hq
      cases hqs
      exact .last h (parameter_of_rest hd (hg.binding hi hte hb hd') hs) hc hs
    · rw [targetItems?_bare (hg.bare he)] at ht
      obtain ⟨target, hte, ht⟩ := Option.bind_eq_some_iff.mp ht
      cases ht
      obtain ⟨q, qs, hq, hqs, rfl⟩ := bindings?_cons_eq_some hp
      cases hqs
      exact .last h (parameter_of_item hd (hg.item he hte hq)) hc hs

/-- Arguments that stand for parameters are read as those parameters in their place. -/
theorem parameters_of_arguments (hg : g.Covers m) {items : List Expr} {comma : Bool}
    {params : List Pattern} (ho : c.next.token = .punctuator .openParen)
    (h : g.arguments m (.front .inside c.next.rest) = some ((items, comma), c'))
    (hp : parameters? items comma = some params) :
    g.parameters m c = some ((params, slice c.next.start c'.left), c') := by
  obtain ⟨k, hk, hl⟩ := listUntil_iff.mp h
  obtain ⟨targets, ht, hb⟩ := Option.bind_eq_some_iff.mp hp
  refine parameters_iff_listed.mpr ⟨ho, rfl, k, hk, comma,
    listed_parameter_of_element hg hl ht hb fun hcomma hf e he => ?_⟩
  rw [hcomma, he] at hf
  cases hf

/-! ## What a method begins with -/

/-- A method is read behind its modifiers and its name. -/
structure Method (g : Grammar) (m : Mode) (c : Cursor) (mods : Modifiers) (c₁ c₂ : Cursor)
    (f : Function) (c' : Cursor) : Prop where
  modifiers : modifiers c = some (mods, c₁)
  key : ∃ key, g.key m c₁ = some (key, c₂)
  rest : g.functionRest mods.isAsync mods.isGenerator none c₂.next.start c₂ = some (f, c')

theorem beginsKey_of_key {name : Key} (h : g.key m c = some (name, c')) :
    beginsKey c.next = true := by
  unfold key at h
  rw [Parser.peek_bind] at h
  rw [beginsKey]
  cases ht : c.next.token with
  | punctuator p =>
    rw [ht] at h
    cases p <;> first | rfl | cases h
  | finish =>
    rw [ht] at h
    cases h
  | invalid =>
    rw [ht] at h
    cases h
  | _ => rfl

/-- Modifiers that are taken begin like a name, or are the star of a generator. -/
theorem modifiers_begins {mods : Modifiers} (h : modifiers c = some (mods, c')) :
    c' = c ∨ beginsKey c.next = true ∨ c.next.token = .punctuator .star := by
  have word {l : Lexeme} {rest : Bool} {word : String} (h : (l.isWord word && rest) = true) :
      beginsKey l = true := by
    obtain ⟨_, _, hw⟩ := Lexeme.word_of_isWord (Bool.and_eq_true_iff.mp h).1
    rw [beginsKey, hw]
  have taken {test : Lexeme → Lexeme → Bool} {c₁ : Cursor}
      (ht : takeWhen test c = some (true, c₁)) : test c.next c.second = true := by
    by_contra hf
    cases (takeWhen_of_false (Bool.eq_false_of_not_eq_true hf)).symm.trans ht
  obtain ⟨get, d₁, hget, hm₁⟩ := Parser.bind_eq_some.mp h
  cases get with
  | true => exact .inr (.inl (word (taken hget)))
  | false =>
    obtain rfl := takeWhen_eq_false hget
    obtain ⟨set, d₂, hset, hm₂⟩ := Parser.bind_eq_some.mp hm₁
    cases set with
    | true => exact .inr (.inl (word (taken hset)))
    | false =>
      obtain rfl := takeWhen_eq_false hset
      obtain ⟨isAsync, d₃, hasync, hm₃⟩ := Parser.bind_eq_some.mp hm₂
      cases isAsync with
      | true =>
        have htest := taken hasync
        rw [Bool.and_assoc] at htest
        exact .inr (.inl (word htest))
      | false =>
        obtain rfl := takeWhen_eq_false hasync
        obtain ⟨isGenerator, d₄, hstar, hm₄⟩ := Parser.bind_eq_some.mp hm₃
        obtain ⟨rfl, rfl⟩ := Parser.pure_eq_some.mp hm₄
        rw [(Parser.accept_accepts .star).run] at hstar
        split at hstar
        next ht => exact .inr (.inr ht)
        next => exact .inl (Prod.mk.inj (Option.some.inj hstar)).2.symm

/-- A property does not begin with the brace that closes its object. -/
theorem property_begins {p : Property} (h : g.property m c = some (p, c')) :
    c.next.token ≠ .punctuator .closeBrace := by
  intro ht
  rcases property_cases h with ⟨_, he, -⟩ | ⟨-, mods, c₁, name, c₂, hm, hk, -⟩
  · cases ht.symm.trans he
  · rcases modifiers_begins hm with rfl | hb | hb
    · have hb := beginsKey_of_key hk
      rw [beginsKey, ht] at hb
      cases hb
    · rw [beginsKey, ht] at hb
      cases hb
    · cases ht.symm.trans hb

theorem exists_method {key : Key} {text : String}
    (h : g.property m c = some (.method key f text, c')) :
    (∃ mods c₁ c₂, Method g m c mods c₁ c₂ f c') ∧ text = slice c.next.start c'.left := by
  rcases property_cases h with ⟨_, -, he, -⟩ | ⟨-, mods, c₁, key', c₂, hm, hk, hr⟩
  · cases he
  · obtain ⟨hf, ht⟩ := method_of_propertyRest hr
    exact ⟨⟨mods, c₁, c₂, hm, ⟨key', hk⟩, hf⟩, ht⟩

theorem modifiers_plain
    (hget : (c.next.isWord "get" && beginsKey c.second) = false)
    (hset : (c.next.isWord "set" && beginsKey c.second) = false)
    (hasync : (c.next.isWord "async" && (beginsKey c.second || c.second.is .star) &&
      !c.second.newline) = false)
    (hstar : c.next.token ≠ .punctuator .star) :
    modifiers c = some (⟨none, false, false⟩, c) := by
  have get : acceptModifier "get" c = some (false, c) :=
    @takeWhen_of_false (fun next second => next.isWord "get" && beginsKey second) c hget
  have set : acceptModifier "set" c = some (false, c) :=
    @takeWhen_of_false (fun next second => next.isWord "set" && beginsKey second) c hset
  have async : acceptAsync c = some (false, c) :=
    @takeWhen_of_false (fun next second => next.isWord "async" &&
      (beginsKey second || second.is .star) && !second.newline) c hasync
  unfold modifiers
  rw [Parser.bind_of_eq_some get, if_neg Bool.false_ne_true, Parser.bind_of_eq_some set,
    if_neg Bool.false_ne_true, Parser.bind_of_eq_some async,
    (Parser.accept_accepts .star).bind_false hstar]
  rfl

namespace Method

variable {mods : Modifiers} {c₁ c₂ : Cursor} (h : Method g m c mods c₁ c₂ f c')

include h

theorem isAsync : f.isAsync = mods.isAsync := by
  obtain ⟨_, _, _, _, -, -, rfl⟩ := functionRest_eq_some.mp h.rest
  rfl

theorem openParen : c₂.next.token = .punctuator .openParen := by
  obtain ⟨_, _, _, _, hp, -⟩ := functionRest_eq_some.mp h.rest
  exact (parameters_iff_listed.mp hp).1

/-- A word without modifiers before it is the name. -/
theorem of_plain {id : String} {escaped : Bool} (hw : c.next.token = .word id escaped)
    (hm : Grammar.modifiers c = some (⟨none, false, false⟩, c)) :
    mods = ⟨none, false, false⟩ ∧ c₂ = .front .inside c.next.rest := by
  obtain ⟨rfl, rfl⟩ := Prod.mk.inj (Option.some.inj (hm.symm.trans h.modifiers))
  obtain ⟨key, hk⟩ := h.key
  exact ⟨rfl, (Prod.mk.inj (Option.some.inj ((key_of_word hw).symm.trans hk))).2.symm⟩

/-- Before a token that begins no name a word is the name itself. -/
theorem of_second {id : String} {escaped : Bool} (hw : c.next.token = .word id escaped)
    (hk : beginsKey c.second = false) (hs : c.second.is .star = false) :
    mods = ⟨none, false, false⟩ ∧ c₂ = .front .inside c.next.rest := by
  refine h.of_plain hw (modifiers_plain ?_ ?_ ?_ (by simp [hw]))
  · rw [hk, Bool.and_false]
  · rw [hk, Bool.and_false]
  · rw [hk, hs, Bool.or_false, Bool.and_false, Bool.false_and]

/-- The word `function` is a name in front of a method. -/
theorem of_keyword (hw : c.next.token = .word "function" false) :
    mods = ⟨none, false, false⟩ ∧ c₂ = .front .inside c.next.rest := by
  have isWord (word : String) (hne : word ≠ "function") : c.next.isWord word = false := by
    simp [Lexeme.isWord, hw, hne.symm]
  refine h.of_plain hw (modifiers_plain ?_ ?_ ?_ (by simp [hw]))
  · rw [isWord "get" (by decide), Bool.false_and]
  · rw [isWord "set" (by decide), Bool.false_and]
  · rw [isWord "async" (by decide), Bool.false_and, Bool.false_and]

/-- Before a word on its line `async` modifies the method. -/
theorem of_async (hw : c.next.token = .word "async" false) {id : String} {escaped : Bool}
    (hs : c.second.token = .word id escaped) : f.isAsync = true := by
  by_contra hf
  rw [h.isAsync, Bool.not_eq_true] at hf
  have isWord (word : String) (hne : word ≠ "async") : c.next.isWord word = false := by
    simp [Lexeme.isWord, hw, hne.symm]
  have modifier (word : String) (hne : word ≠ "async") : acceptModifier word c = some (false, c) :=
    @takeWhen_of_false (fun next second => next.isWord word && beginsKey second) c
      (by rw [isWord word hne, Bool.false_and])
  -- Where the word is not taken, it is the name, and a parenthesis stands behind it.
  have hplain : Grammar.modifiers c = some (⟨none, false, false⟩, c) := by
    have hm := h.modifiers
    unfold Grammar.modifiers at hm ⊢
    rw [Parser.bind_of_eq_some (modifier "get" (by decide)), if_neg Bool.false_ne_true,
      Parser.bind_of_eq_some (modifier "set" (by decide)), if_neg Bool.false_ne_true] at hm ⊢
    obtain ⟨isAsync, c₃, ha, hr⟩ := Parser.bind_eq_some.mp hm
    obtain ⟨isGenerator, c₄, -, hr⟩ := Parser.bind_eq_some.mp hr
    obtain ⟨rfl, -⟩ := Parser.pure_eq_some.mp hr
    obtain rfl : isAsync = false := hf
    obtain rfl := takeWhen_eq_false ha
    rw [Parser.bind_of_eq_some ha, (Parser.accept_accepts .star).bind_false (by simp [hw])]
    rfl
  have hopen := h.openParen
  rw [(h.of_plain hw hplain).2] at hopen
  rw [Cursor.second_of_word hw] at hs
  cases hs.symm.trans hopen

/-- A method begins with a name, or with the star of a generator. -/
theorem begins : beginsKey c.next = true ∨ c.next.token = .punctuator .star := by
  rcases modifiers_begins h.modifiers with rfl | hb
  · obtain ⟨_, hk⟩ := h.key
    exact .inl (beginsKey_of_key hk)
  · exact hb

theorem token_ne {p : Punctuator} (hk : p ≠ .openBracket) (hs : p ≠ .star) :
    c.next.token ≠ .punctuator p := by
  intro ht
  rcases h.begins with hb | hb
  · rw [beginsKey, ht] at hb
    cases p <;> first | exact hk rfl | cases hb
  · exact hs (Token.punctuator.inj (ht.symm.trans hb))

end Method

/-! ## The text of a method as an expression -/

theorem seesArrow_eq_some {arrow : Bool} (h : seesArrow c = some (arrow, c')) :
    c' = c ∧ (arrow = true → c.next.token = .punctuator .arrow) := by
  obtain ⟨rfl, rfl⟩ := Prod.mk.inj (Option.some.inj h)
  refine ⟨rfl, fun ha => ?_⟩
  simpa [Lexeme.is] using (Bool.and_eq_true_iff.mp ha).1

theorem arrow_of_arrowRest {isAsync : Bool} {params : List Pattern} {text : String} {e : Expr}
    (h : g.arrowRest m isAsync params text c = some (e, c')) :
    c.next.token = .punctuator .arrow := by
  obtain ⟨arrow, c₁, hs, h⟩ := Parser.bind_eq_some.mp h
  obtain ⟨_, c₂, hc, -⟩ := Parser.bind_eq_some.mp h
  exact (seesArrow_eq_some hs).2 (Parser.check_eq_some.mp hc).1

/-- A call of `async` goes on as anything but an arrow function. -/
theorem not_arrow_of_assignmentFrom {operand : Expr} {value : Option String}
    (ho : operand.isWhole = false) :
    g.assignmentFrom m operand c ≠ some (.arrow value f, c') := by
  intro h
  obtain ⟨first, c₁, hf, h⟩ := Parser.bind_eq_some.mp h
  obtain ⟨left, c₂, hl, h⟩ := Parser.bind_eq_some.mp h
  rcases assignmentRest_whole h rfl with ⟨_, _, -, -, -, -, he⟩ | ⟨_, _, _, -, he⟩ | ⟨rfl, -, -⟩
  · cases he
  · cases he
  · obtain ⟨rfl, -⟩ := operators_whole hl rfl
    obtain ⟨rfl, -⟩ := postfixed_whole hf rfl
    cases ho

/-- The parts of a function that a canonical form takes over. -/
structure SameParts (f f' : Function) : Prop where
  isAsync : f.isAsync = f'.isAsync
  isGenerator : f.isGenerator = f'.isGenerator
  params : f.params = f'.params
  paramsText : f.paramsText = f'.paramsText
  body : f.body = f'.body

theorem sameParts_of_functionRest {isAsync isGenerator : Bool} {name name' : Option String}
    {start start' : List Char} {f f' : Function} {d d' : Cursor}
    (h : (grammar fuel level).functionRest isAsync isGenerator name start c = some (f, d))
    (h' : (grammar fuel' level').functionRest isAsync isGenerator name' start' c = some (f', d')) :
    SameParts f f' := by
  obtain ⟨params, text, c₁, body, hp, hb, rfl⟩ := functionRest_eq_some.mp h
  obtain ⟨params', text', c₁', body', hp', hb', rfl⟩ := functionRest_eq_some.mp h'
  have follows {g g' : Grammar} (hag : Agrees .same g g') :
      Opens .same never (g.parameters (functionMode isAsync isGenerator))
        (g'.parameters (functionMode isAsync isGenerator)) := by
    have opens : Opens .same never _ _ := hag.parameters (functionMode isAsync isGenerator) false
    rwa [Mode.widen_false] at opens
  have bodies {g g' : Grammar} (hag : Agrees .same g g') :
      Opens .same never (g.functionBody (functionMode isAsync isGenerator))
        (g'.functionBody (functionMode isAsync isGenerator)) := by
    have opens : Opens .same never _ _ := hag.functionBody (functionMode isAsync isGenerator) false
    rwa [Mode.widen_false] at opens
  obtain ⟨hparams, rfl⟩ := Prod.mk.inj (eq_of_reads
    (p := fun g => g.parameters (functionMode isAsync isGenerator))
    (q := fun g => g.parameters (functionMode isAsync isGenerator))
    (fun hag => (follows hag).follows) (fun hag => (follows hag).follows) hp hp')
  obtain ⟨rfl, rfl⟩ := Prod.mk.inj hparams
  obtain ⟨rfl, -⟩ := Prod.mk.inj (eq_of_reads
    (p := fun g => g.functionBody (functionMode isAsync isGenerator))
    (q := fun g => g.functionBody (functionMode isAsync isGenerator))
    (fun hag => (bodies hag).follows) (fun hag => (bodies hag).follows) hb hb')
  exact ⟨rfl, rfl, rfl, rfl, rfl⟩

namespace Method

variable {mods : Modifiers} {c₁ c₂ d : Cursor} {f' : Function}
  (h : Method (grammar fuel level) Mode.script c mods c₁ c₂ f c')

include h

/-- A method that begins like a function is that function, or both are async. -/
theorem of_function
    (hf : (grammar fuel' level').function Mode.script false c = some (f', d)) :
    f'.isAsync = true ∧ f.isAsync = true ∨ SameParts f' f := by
  replace hf : (Parser.acceptWord "async" >>=
      (grammar fuel' level').functionBehind Mode.script false c.next.start) c = some (f', d) := hf
  by_cases hasync : c.next.token = .word "async" false
  · rw [(Parser.acceptWord_accepts "async").bind_true hasync] at hf
    unfold functionBehind at hf
    obtain ⟨_, d₁, hkeyword, hf⟩ := Parser.bind_eq_some.mp hf
    have hsecond : c.second.token = .word "function" false := by
      rw [Cursor.second_of_word hasync]
      exact (Parser.expectWord_eq_some.mp hkeyword).1
    refine .inl ⟨?_, h.of_async hasync hsecond⟩
    obtain ⟨isGenerator, d₂, -, hf⟩ := Parser.bind_eq_some.mp hf
    obtain ⟨sees, d₃, -, hf⟩ := Parser.bind_eq_some.mp hf
    split at hf
    · obtain ⟨_, _, _, _, -, -, rfl⟩ := functionRest_eq_some.mp hf
      rfl
    · obtain ⟨_, d₄, -, hf⟩ := Parser.bind_eq_some.mp hf
      obtain ⟨_, _, _, _, -, -, rfl⟩ := functionRest_eq_some.mp hf
      rfl
  · rw [(Parser.acceptWord_accepts "async").bind_false hasync] at hf
    unfold functionBehind at hf
    obtain ⟨_, d₁, hkeyword, hf⟩ := Parser.bind_eq_some.mp hf
    obtain ⟨hword, rfl⟩ := Parser.expectWord_eq_some.mp hkeyword
    obtain ⟨rfl, rfl⟩ := h.of_keyword hword
    have hopen := h.openParen
    rw [(Parser.accept_accepts .star).bind_false (by rw [hopen]; simp), Parser.sees_bind,
      Parser.peek_bind, if_pos (by simp [Lexeme.is, hopen])] at hf
    exact .inr (sameParts_of_functionRest hf h.rest)

/-- No arrow stands behind the parameters of a method called `async`. -/
theorem not_asyncParen {value : Option String} (hw : c.next.token = .word "async" false) :
    (grammar fuel' level').asyncParen Mode.script c ≠ some (.arrow value f', d) := by
  intro ha
  obtain ⟨_, d₁, hword, ha⟩ := Parser.bind_eq_some.mp ha
  obtain ⟨-, rfl⟩ := Parser.expectWord_eq_some.mp hword
  rw [Parser.peek_bind] at ha
  obtain ⟨_, d₂, hexpect, ha⟩ := Parser.bind_eq_some.mp ha
  obtain ⟨hopen, rfl⟩ := Parser.expect_eq_some.mp hexpect
  obtain ⟨⟨items, comma⟩, d₃, hitems, ha⟩ := Parser.bind_eq_some.mp ha
  obtain ⟨arrow, d₄, hs, ha⟩ := Parser.bind_eq_some.mp ha
  obtain ⟨rfl, harrow⟩ := seesArrow_eq_some hs
  cases arrow with
  | false => exact not_arrow_of_assignmentFrom rfl ha
  | true =>
    obtain ⟨params, d₅, hl, -⟩ := Parser.bind_eq_some.mp ha
    obtain ⟨hparams, rfl⟩ := Parser.lift_eq_some.mp hl
    have hsecond : c.second.token = .punctuator .openParen := by
      rw [Cursor.second_of_word hw]
      exact hopen
    obtain ⟨rfl, rfl⟩ := h.of_second hw (by rw [beginsKey, hsecond]) (by simp [Lexeme.is, hsecond])
    obtain ⟨params', text, d₆, body, hp, hb, -⟩ := functionRest_eq_some.mp h.rest
    have hread := parameters_of_arguments (covers_grammar fuel' level' Mode.script) hopen hitems
      hparams
    have lifts {g g' : Grammar} (hag : Agrees .same g g') : Opens .same never
        (g.parameters Mode.script) (g'.parameters (functionMode false false)) :=
      hag.parameters Mode.script true
    have plain {g g' : Grammar} (hag : Agrees .same g g') : Opens .same never
        (g.parameters (functionMode false false)) (g'.parameters (functionMode false false)) :=
      hag.parameters (functionMode false false) false
    -- The same parameters end before an arrow and before a brace.
    obtain ⟨-, rfl⟩ := Prod.mk.inj (eq_of_reads (p := fun g => g.parameters Mode.script)
      (q := fun g => g.parameters (functionMode false false))
      (fun hag => (lifts hag).follows) (fun hag => (plain hag).follows) hread hp)
    cases (harrow rfl).symm.trans (functionBody_eq_some.mp hb).1

/-- Only an async method reads as an arrow function, and as an async one. -/
theorem of_arrow {value : Option String}
    (ha : (grammar fuel' (level' + 1)).assignment Mode.script c = some (.arrow value f', d)) :
    f'.isAsync = true ∧ f.isAsync = true := by
  cases assignmentExpression_whole ha rfl with
  | operand hp =>
    rcases primary_whole hp rfl with ⟨_, he, -⟩ | ⟨_, _, he, -⟩ | ⟨_, _, he, -⟩ | ⟨_, he, -⟩ |
      ⟨_, _, he, -⟩
    all_goals cases he
  | parens hr =>
    obtain ⟨_, _, he⟩ := parenthesized_value hr
    cases he
  | single hs =>
    replace hs : (Parser.identifier Mode.script >>= fun id => Parser.textFrom c.next.start >>=
        fun text => (grammar fuel' level').arrowRest Mode.script false [.bind id] text) c =
        some (.arrow value f', d) := hs
    obtain ⟨id, d₁, hi, hs⟩ := Parser.bind_eq_some.mp hs
    obtain ⟨hid, rfl⟩ := Parser.identifier_eq_some.mp hi
    obtain ⟨escaped, hword⟩ := Lexeme.identifier?_word hid
    have harrow := arrow_of_arrowRest hs
    have hsecond : c.second.token = .punctuator .arrow := by
      rw [Cursor.second_of_word hword]
      exact harrow
    obtain ⟨-, rfl⟩ := h.of_second hword (by rw [beginsKey, hsecond]) (by simp [Lexeme.is, hsecond])
    cases harrow.symm.trans h.openParen
  | arrow _ _ _ hr =>
    exact (h.token_ne (by decide) (by decide) (openParen_of_parenthesized hr)).elim
  | asyncArrow value' f'' he hasync hw hs =>
    obtain ⟨rfl, rfl⟩ := Expr.arrow.inj he
    rcases hs with hparen | ⟨id, escaped, hsecond⟩
    · exact (h.not_asyncParen hw hparen).elim
    · exact ⟨hasync, h.of_async hw hsecond⟩
  | assign _ _ _ ha =>
    obtain ⟨_, _, -, -, -, -, he⟩ := ha
    cases he
  | store _ _ _ he => cases he

end Method

end Grammar

/-- The text of a method, as an expression, is no function but for that of the method, unless the
method is async. -/
theorem function_of_method {text : String} {key : Key} {f f' : Function} {e : Expr}
    (hread : ReadsAlone (fun g => g.property Mode.script) text (.method key f text))
    (he : parseExpression? text = some e) :
    (e.withoutParens = .function f' → f'.isAsync = true ∧ f.isAsync = true ∨ SameParts f' f) ∧
      ∀ value, e.withoutParens = .arrow value f' → f'.isAsync = true ∧ f.isAsync = true := by
  obtain ⟨fuel, level, hg⟩ := exists_grammar hread
  obtain ⟨⟨mods, c₁, c₂, hm⟩, -⟩ := exists_method hg
  have hbare (hs : ∀ all, e ≠ .sequence all) : e.withoutParens = e := by
    cases e with
    | paren inside inner =>
      obtain ⟨fuel', level', c', ha⟩ := assignment_of_parseExpression? he hs
      exact (hm.token_ne (by decide) (by decide) 
        (openParen_of_parenthesized (parenthesized_of_assignment ha))).elim
    | _ => rfl
  have hs (hw : ∀ all, e.withoutParens ≠ .sequence all) (all : List Expr) : e ≠ .sequence all := by
    rintro rfl
    exact hw all rfl
  constructor
  · intro hf
    have hs := hs (by simp [hf])
    obtain ⟨fuel', level', c', ha⟩ := assignment_of_parseExpression? he hs
    rw [(hbare hs).symm.trans hf] at ha
    exact hm.of_function (function_of_assignment ha)
  · intro value hf
    have hs := hs (by simp [hf])
    obtain ⟨fuel', level', c', ha⟩ := assignment_of_parseExpression? he hs
    rw [(hbare hs).symm.trans hf] at ha
    exact hm.of_arrow ha

/-! ## The text of a method in an object -/

/-- In braces the text of a property is the object that holds it and nothing else. -/
theorem parseExpression?_object {text : String} {p : Property}
    (h : ReadsText (fun g => g.property Mode.script) text p) (hpending : p.tree.isPending = false) :
    parseExpression? ("\x7b" ++ text ++ "\x7d") = some (.object [p] false) := by
  obtain ⟨-, hread⟩ := h .brace []
  have htext : ("\x7b" ++ text ++ "\x7d").toList =
      '\x7b' :: (text.toList ++ [Closer.brace.char]) := by
    simp [Closer.char]
  have hobject : (Expr.object [p] false).tree.isPending = false := by
    have htree : (Expr.object [p] false).tree = .node .other [p.tree] := rfl
    rw [htree, Tree.isPending_other, List.any_cons, hpending]
    rfl
  refine parseExpression?_of_eventually (c := .front .inside []) ?_ rfl hobject
  rw [htext]
  generalize text.toList ++ [Closer.brace.char] = inside at hread ⊢
  have hopen : (Cursor.front .expression ('\x7b' :: inside)).next =
      ⟨.punctuator .openBrace, true, '\x7b' :: inside, inside⟩ := by
    show lex .expression ('\x7b' :: inside) = _
    rw [lex_bracket inside (show ('\x7b', Punctuator.openBrace) ∈ brackets by decide)]
    rfl
  have hclose := next_of_closer .brace []
  filter_upwards [eventually_above (hread.and (eventually_fuel 1)) 1]
  rintro _ ⟨g, fuel, ⟨hg, hfuel⟩, hfuel', rfl⟩
  have hlist : g.listUntil .closeBrace (g.property Mode.script) (.front .inside inside) =
      some (([p], false), .front .inside []) := by
    have hl : Listed .closeBrace (g.property Mode.script) 1 false (.front .inside inside) [p] false
        (.front .inside (Cursor.front .inside [Closer.brace.char]).next.rest) :=
      .last (Grammar.property_begins hg) hg (by rw [hclose]; simp [Closer.punctuator])
        (by rw [hclose]; rfl)
    rw [hclose] at hl
    exact Grammar.listUntil_iff.mpr ⟨1, hfuel, hl⟩
  have hprimary : g.primary Mode.script (.front .expression ('\x7b' :: inside)) =
      some (.object [p] false, .front .inside []) := by
    unfold Grammar.primary
    rw [Parser.peek_bind, hopen]
    dsimp only
    rw [Parser.bind_of_eq_some (Parser.advance_of_real (by rw [hopen]; rfl)), hopen]
    exact Parser.bind_of_eq_some hlist
  have hassignment : g.assignmentExpression Mode.script (.front .expression ('\x7b' :: inside)) =
      some (.object [p] false, .front .inside []) := by
    refine Grammar.assignmentExpression_primary hfuel ?_ ?_ ?_ ?_ ?_ hprimary .finish
    · rw [openingAt, hopen]
    · rw [unaryOp?, hopen]
    · rw [updateOp?, hopen]
    · rintro word -
      rw [Lexeme.isWord, hopen]
      rfl
    · intro id hid
      rw [hopen] at hid
      cases hid
  refine (Parser.bind_of_eq_some hassignment).trans
    (Grammar.commaList_ended (g := g.above fuel) hfuel' ?_)
  show Token.finish ≠ _
  simp

end Collector.Script
