import Collector.Proofs.Script.Operands

/-!
# Expressions across a seam

Member accesses, calls, operators, conditionals, assignments and arrow functions. Where an
expression stops, the closer on the new side ends it too, so the productions follow each other
wherever they stop; the callee of `new` may not stop before a parenthesis.
-/

namespace Collector.Script

open Relation

variable {α β : Type} {σ : Seam} {halts : Cursor → Prop}

theorem Lexeme.is_iff {l : Lexeme} {p : Punctuator} :
    l.is p = true ↔ l.punctuator? = some p := by
  unfold Lexeme.is Lexeme.punctuator?
  cases l.token <;> simp

namespace Grammar

/-- Where no link is taken, none stands. -/
theorem link?_none {g : Grammar} {m : Mode} {calls : Bool} {chain : Chain} {c c' : Cursor}
    (h : g.link? m calls chain c = some (none, c')) :
    c' = c ∧ c.next.is .dot = false ∧ c.next.is .openBracket = false ∧
      (calls = true → c.next.is .openParen = false) := by
  unfold link? at h
  rw [Parser.peek_bind] at h
  have is_iff (p : Punctuator) : c.next.is p = true ↔ c.next.punctuator? = some p :=
    Lexeme.is_iff
  have stay (hn : (pure none : Parser (Option Chain)) c = some (none, c')) : c' = c :=
    (Parser.pure_eq_some.mp hn).2.symm
  simp only [Bool.eq_false_iff, ne_eq, is_iff]
  cases hp : c.next.punctuator? with
  | none =>
    rw [hp] at h
    exact ⟨stay h, by simp⟩
  | some p =>
    rw [hp] at h
    cases p
    case openParen =>
      cases calls with
      | true => simp [Parser.bind_eq_some, Parser.map_eq_some] at h
      | false => exact ⟨stay h, by simp⟩
    case questionDot =>
      cases calls with
      | true => simp [Parser.bind_eq_some, Parser.map_eq_some] at h
      | false => exact ⟨stay h, by simp⟩
    case dot => simp [Parser.bind_eq_some, Parser.map_eq_some] at h
    case openBracket => simp [Parser.bind_eq_some, Parser.map_eq_some] at h
    case backtick => simp [Parser.bind_eq_some, Parser.map_eq_some] at h
    all_goals exact ⟨stay h, by simp⟩

/-- Behind the links of a chain no further one stands. -/
theorem links_stops {g : Grammar} {m : Mode} {calls : Bool} {operand e : Expr} {c c' : Cursor}
    (h : g.links m calls operand c = some (e, c')) :
    c'.next.is .dot = false ∧ c'.next.is .openBracket = false ∧
      (calls = true → c'.next.is .openParen = false) := by
  obtain ⟨chain, c₁, hs⟩ := Parser.iterate_last h
  obtain ⟨next, c₂, hl, hr⟩ := Parser.bind_eq_some.mp hs
  cases next with
  | some chain => simp [Parser.pure_eq_some] at hr
  | none =>
    obtain ⟨rfl, hn⟩ := link?_none hl
    obtain ⟨-, rfl⟩ := Parser.pure_eq_some.mp hr
    exact hn

/-- The operator behind an operand and its links. -/
def updateRest (operand : Expr) : Parser Expr := do
  let next ← Parser.peek
  match updateOp? next with
  | some increment =>
    if next.newline then return operand
    else
      Parser.check operand.isPlace
      Parser.advance
      return .update increment false operand
  | none => return operand

/-- Whether a lexeme stands where the operand of `yield` is missing. -/
def endsYield (next : Lexeme) : Bool :=
  next.token == .finish || next.isWord "in" ||
    match next.punctuator? with
    | some .semicolon | some .closeBrace | some .closeParen | some .closeBracket
    | some .colon | some .comma => true
    | _ => false

/-- The operand of `yield` on its line. -/
def yieldOperand (g : Grammar) (m : Mode) : Parser Expr := do
  let delegate ← Parser.accept .star
  let next ← Parser.peek
  if endsYield next && !delegate then return .yield false []
  else return .yield delegate [← g.assignment m]

theorem endsYield_stop {stop : Stop} {l : Lexeme} (h : l.token = stop.token) :
    endsYield l = true := by
  rcases stop with (_ | _ | _) | _ <;>
    simp [endsYield, Lexeme.punctuator?, h, Stop.token, Closer.punctuator]

/-- `async` before a parenthesis, behind the word. -/
def asyncParenBehind (g : Grammar) (m : Mode) : Parser Expr := do
  let start := (← Parser.peek).start
  Parser.expect .openParen
  let (items, comma) ← g.arguments m
  if ← seesArrow then
    let params ← Parser.lift (parameters? items comma)
    g.arrowRest m true params (← Parser.textFrom start)
  else g.assignmentFrom m (.call (.name "async") items false)

/-- What an expression without commas begins with, by its next two lexemes. -/
def openingAt (m : Mode) (next second : Lexeme) : Opening :=
  match next.token with
  | .punctuator .openParen => .paren
  | .word id escaped =>
    if second.is .arrow && !second.newline && m.allows id then .arrow
    else if m.isGenerator && id == "yield" && !escaped then .yields
    else if id == "async" && !escaped && !second.newline then
      if second.is .openParen then .asyncParen
      else match second.token with
        | .word word _ =>
          let third := lex .inside second.rest
          if !reservedWords.contains word && third.is .arrow && !third.newline then .asyncArrow
          else .other
        | _ => .other
    else .other
  | _ => .other

/-- Whether a name and an arrow stand here, as behind `async`. -/
def namesArrow (second : Lexeme) : Bool :=
  match second.token with
  | .word word _ =>
    let third := lex .inside second.rest
    !reservedWords.contains word && third.is .arrow && !third.newline
  | _ => false

/-- What an expression begins with that begins with a word, by the conditions that tell it. -/
def wordOpening (arrow yields async paren asyncArrow : Bool) : Opening :=
  if arrow then .arrow
  else if yields then .yields
  else if async then (if paren then .asyncParen else if asyncArrow then .asyncArrow else .other)
  else .other

theorem wordOpening_names (arrow yields async paren names : Bool) :
    wordOpening arrow yields async paren names = wordOpening arrow yields async paren true ∨
      wordOpening arrow yields async paren true = .asyncArrow := by
  cases arrow <;> cases yields <;> cases async <;> cases paren <;> cases names <;>
    simp [wordOpening]

theorem wordOpening_alone (arrow yields async async' paren names : Bool) :
    wordOpening false yields async' false false = wordOpening arrow yields async paren names ∨
      (wordOpening arrow yields async paren names = .arrow ∨
        wordOpening arrow yields async paren names = .asyncParen ∨
        wordOpening arrow yields async paren names = .asyncArrow) := by
  cases arrow <;> cases yields <;> cases async <;> cases async' <;> cases paren <;> cases names <;>
    simp [wordOpening]

theorem openingAt_word {m : Mode} {next : Lexeme} {id : String} {escaped : Bool}
    (h : next.token = .word id escaped) (second : Lexeme) : openingAt m next second =
      wordOpening (second.is .arrow && !second.newline && m.allows id)
        (m.isGenerator && id == "yield" && !escaped) (id == "async" && !escaped && !second.newline)
        (second.is .openParen) (namesArrow second) := by
  unfold openingAt wordOpening namesArrow
  rw [h]
  cases second.token <;> rfl

theorem opening_eq (m : Mode) (c : Cursor) :
    opening m c = some (openingAt m c.next c.second, c) := by
  unfold opening openingAt
  rw [Parser.peek_bind, Parser.bind_of_eq_some (Parser.peekSecond_eq c)]
  cases c.next.token with
  | punctuator p => cases p <;> rfl
  | word id escaped =>
    dsimp only
    generalize c.second = second
    split
    · rfl
    · split
      · rfl
      · split
        · split
          · rfl
          · cases second.token with
            | word word escaped => dsimp only; split <;> rfl
            | _ => rfl
        · rfl
  | _ => rfl

/-- An expression without commas behind the look at what it begins with. -/
def assignmentBehind (g : Grammar) (m : Mode) : Opening → Parser Expr
  | .arrow => g.singleArrow m false
  | .asyncArrow => do
    Parser.expectWord "async"
    g.singleArrow m true
  | .asyncParen => g.asyncParen m
  | .yields => g.yieldRest m
  | .paren => do
    match ← g.parenthesized m with
    | .parameters params text => g.arrowRest m false params text
    | .value e => g.assignmentFrom m e
  | .other => do
    let left ← g.operandAbove m 0
    g.assignmentRest m left

end Grammar

theorem Seam.Passed.namesArrow {c : Cursor} (hp : σ.Passed c) :
    Grammar.namesArrow (σ.shiftLexeme c.next) = Grammar.namesArrow c.next ∨
      Grammar.namesArrow c.next = true ∧ σ.AtSeam (.front .inside c.next.rest) := by
  have word {l : Lexeme} {id : String} {escaped : Bool} (h : l.token = .word id escaped) :
      Grammar.namesArrow l = (!reservedWords.contains id && (lex .inside l.rest).is .arrow &&
        !(lex .inside l.rest).newline) := by
    unfold Grammar.namesArrow
    rw [h]
  by_cases hw : ∃ id escaped, c.next.token = .word id escaped
  · obtain ⟨id, escaped, hw⟩ := hw
    have hw' : (σ.shiftLexeme c.next).token = .word id escaped := hw
    rcases hp.word id escaped hw with hsees | hat
    · have hthird : lex .inside (σ.shiftLexeme c.next).rest =
          σ.shiftLexeme (lex .inside c.next.rest) := hsees.next
      rw [word hw, word hw', hthird]
      exact .inl rfl
    · have hthird : (lex .inside (σ.shiftLexeme c.next).rest).is .arrow = false := by
        have htoken : (lex .inside (σ.shiftLexeme c.next).rest).token = _ := hat.token
        exact Stop.is_eq_false htoken (by decide)
      cases hn : Grammar.namesArrow c.next with
      | true => exact .inr ⟨rfl, hat⟩
      | false => simp [word hw', hthird]
  · have other {l : Lexeme} (h : ¬ ∃ id escaped, l.token = .word id escaped) :
        Grammar.namesArrow l = false := by
      unfold Grammar.namesArrow
      split
      next id escaped ht => exact (h ⟨id, escaped, ht⟩).elim
      next => rfl
    exact .inl ((other (l := σ.shiftLexeme c.next) hw).trans (other hw).symm)

/-- The two sides agree on what an expression begins with, unless the seam stands before one of the
tokens that tell an arrow function or a call of `async`. -/
theorem Seam.Meets.openingAt {c d c' : Cursor} (hd : σ.Meets c d) (hm : TransGen Move c c')
    (hok : σ.Ok halts c') (m : Mode) (inside : Bool) :
    Grammar.openingAt (m.widen inside) d.next d.second = Grammar.openingAt m c.next c.second ∨
      (σ.AtSeam (.front .inside c.next.rest) ∧
        (Grammar.openingAt m c.next c.second = .arrow ∨
          Grammar.openingAt m c.next c.second = .asyncParen ∨
          Grammar.openingAt m c.next c.second = .asyncArrow)) ∨
      (σ.AtSeam (.front .inside c.second.rest) ∧
        Grammar.openingAt m c.next c.second = .asyncArrow) := by
  obtain ⟨newline, hn⟩ := hd
  have ht : d.next.token = c.next.token := by rw [hn]; rfl
  by_cases hw : ∃ id escaped, c.next.token = .word id escaped
  · obtain ⟨id, escaped, hw⟩ := hw
    have hw' : d.next.token = .word id escaped := ht.trans hw
    have hs : d.second = (σ.moved (.front .inside c.next.rest)).next := by
      rw [Cursor.second_of_word hw', hn]
      rfl
    rw [Grammar.openingAt_word hw, Grammar.openingAt_word hw']
    rcases Seam.ok_of_moves (moves_behind_word hm (by rw [hw]; rfl)) hok with hp | ⟨hat, -⟩
    · have hs' : d.second = σ.shiftLexeme c.second := by
        rw [hs, hp.next, Cursor.second_of_word hw]
        rfl
      rw [hs']
      have hnames : Grammar.namesArrow (σ.shiftLexeme c.second) = Grammar.namesArrow c.second ∨
          Grammar.namesArrow c.second = true ∧ σ.AtSeam (.front .inside c.second.rest) := by
        rw [Cursor.second_of_word hw]
        exact hp.namesArrow
      rcases hnames with hnames | ⟨hnames, hat⟩
      · rw [hnames]
        exact .inl rfl
      · rw [hnames]
        rcases Grammar.wordOpening_names (c.second.is .arrow && !c.second.newline && m.allows id)
          (m.isGenerator && id == "yield" && !escaped) (id == "async" && !escaped &&
            !c.second.newline) (c.second.is .openParen)
          (Grammar.namesArrow (σ.shiftLexeme c.second)) with ho | ho
        · exact .inl ho
        · exact .inr (.inr ⟨hat, ho⟩)
    · rw [hs]
      have his (p : Punctuator) (hne : .punctuator p ≠ σ.stop.token) :
          (σ.moved (.front .inside c.next.rest)).next.is p = false := by
        simpa [Lexeme.is, hat.token] using hne.symm
      have hnames : Grammar.namesArrow (σ.moved (.front .inside c.next.rest)).next = false := by
        simp [Grammar.namesArrow, hat.token]
      rw [his .arrow (Stop.ne (by decide) _), his .openParen (Stop.ne (by decide) _), hnames]
      rcases Grammar.wordOpening_alone _ _ _ _ _ _ with ho | ho
      · exact .inl ho
      · exact .inr (.inl ⟨hat, ho⟩)
  · have other (next second : Lexeme) (m : Mode)
        (h : ¬ ∃ id escaped, next.token = .word id escaped) :
        Grammar.openingAt m next second =
          if next.token = .punctuator .openParen then .paren else .other := by
      unfold Grammar.openingAt
      cases htoken : next.token with
      | punctuator p => cases p <;> simp
      | word id escaped => exact (h ⟨id, escaped, htoken⟩).elim
      | _ => rfl
    left
    rw [other _ _ _ hw, other _ _ _ (by rw [ht]; exact hw), ht]

namespace Agrees

open Grammar

variable {g g' : Grammar} (h : Agrees σ g g') (m : Mode) (inside : Bool)

include h

/-! ## Members and calls -/

omit h in
theorem memberOf (object : Expr) (optional : Bool) :
    Opens σ halts (memberOf object optional) (memberOf object optional) := by
  refine .peek fun l _ => ?_
  obtain ⟨token, newline, start, rest⟩ := l
  cases token with
  | word id escaped => exact Opens.advance.bind fun _ => .pure _
  | privateName id => exact Opens.advance.bind fun _ => .pure _
  | _ => exact .failure _

theorem indexOf (object : Expr) (optional : Bool) :
    Opens σ halts (g.indexOf m object optional) (g'.indexOf (m.widen inside) object optional) :=
  (h.expression m.withIn inside).bind fun _ => Opens.expect.follows.bind fun _ => .pure _

theorem optionalLink (object : Expr) :
    Opens σ halts (g.optionalLink m object) (g'.optionalLink (m.widen inside) object) := by
  refine .accept ?_ (.accept ?_ ?_)
  · exact (h.arguments m inside).follows.bind fun _ => .pure _
  · exact (h.indexOf m inside object true).follows
  · exact memberOf object true

/-- The next link of a chain, if there is one: something is taken, or nothing is answered. -/
theorem link? (calls : Bool) (chain : Chain) :
    Follows σ halts (g.link? m calls chain) (g'.link? (m.widen inside) calls chain) := by
  refine .peek_or (.pure none) (fun l hl => ?_) fun l => ?_
  · obtain ⟨token, newline, start, rest⟩ := l
    obtain rfl : token = σ.stop.token := hl
    rcases σ.stop with (_ | _ | _) | _ <;> rfl
  obtain ⟨token, newline, start, rest⟩ := l
  cases token with
  | punctuator p =>
    cases p with
    | dot =>
      refine .inl (Opens.advance.bind fun _ => ?_).leads.onToken
      exact (memberOf chain.value false).follows.bind fun _ => .pure _
    | openBracket =>
      refine .inl (Opens.advance.bind fun _ => ?_).leads.onToken
      exact (h.indexOf m inside chain.value false).follows.bind fun _ => .pure _
    | backtick =>
      obtain ⟨value, optional⟩ := chain
      refine .inl (Opens.leads ?_)
      cases optional with
      | true => exact (Opens.of_none (fun _ => rfl) _).onToken
      | false => exact h.template_then m inside fun _ => .pure _
    | openParen =>
      cases calls with
      | true =>
        refine .inl (Opens.advance.bind fun _ => ?_).leads.onToken
        exact (h.arguments m inside).follows.bind fun _ => .pure _
      | false => exact .inr ⟨rfl, rfl⟩
    | questionDot =>
      cases calls with
      | true =>
        refine .inl (Opens.advance.bind fun _ => ?_).leads.onToken
        exact (h.optionalLink m inside chain.value).follows.bind fun _ => .pure _
      | false => exact .inr ⟨rfl, rfl⟩
    | _ => exact .inr ⟨rfl, rfl⟩
  | _ => exact .inr ⟨rfl, rfl⟩

theorem links (calls : Bool) (operand : Expr) :
    Follows σ halts (g.links m calls operand) (g'.links (m.widen inside) calls operand) := by
  refine .iterate h.fuel (fun chain => ?_) _
  refine (h.link? m inside calls chain).bind fun next => ?_
  cases next with
  | some chain => exact .pure _
  | none => exact .pure _

/-- What may stand behind the callee of `new`. -/
theorem newArguments (callee : Expr) : Follows σ halts
    (Parser.sees .questionDot >>= fun optional => Parser.check (!optional) >>= fun _ =>
      Parser.accept .openParen >>= fun more =>
        if more then g.arguments m >>= fun r => pure (Expr.new callee r.1)
        else pure (.new callee []))
    (Parser.sees .questionDot >>= fun optional => Parser.check (!optional) >>= fun _ =>
      Parser.accept .openParen >>= fun more =>
        if more then g'.arguments (m.widen inside) >>= fun r => pure (Expr.new callee r.1)
        else pure (.new callee [])) := by
  refine .sees (Stop.ne (by decide) _) (Opens.of_none (fun _ => rfl) _).leads ?_
  refine Follows.check.bind fun _ => .accept (Stop.ne (by decide) _) ?_ (.pure _)
  exact (h.arguments m inside).follows.bind fun _ => .pure _

theorem newRest : Opens σ halts (g.newRest m) (g'.newRest (m.widen inside)) := by
  refine .accept (Opens.expectWord.follows.bind fun _ => .pure _) ?_
  have opens := @h.callee (fun c => c.next.token ≠ .punctuator .openParen) (fun _ hc => hc) m inside
  refine .bind_at opens (fun callee => h.newArguments m inside callee) ?_
  intro callee e c hat hh hb ht
  simp only [Parser.bind_eq_some, Parser.check_eq_some] at hb
  obtain ⟨optional, c₁, hsees, -, c₂, ⟨-, rfl⟩, more, c₃, haccept, hb⟩ := hb
  obtain ⟨rfl, rfl⟩ := Prod.mk.inj (Option.some.inj (show some (c.next.is _, c) = _ from hsees))
  have accepts := Parser.accept_accepts .openParen
  rw [accepts.run, if_pos ht] at haccept
  obtain ⟨rfl, rfl⟩ := Prod.mk.inj (Option.some.inj haccept)
  have args : Leads σ halts _ _ := h.arguments m inside
  obtain ⟨r, c₄, ha, hb⟩ := Parser.bind_eq_some.mp hb
  obtain ⟨-, rfl⟩ := Parser.pure_eq_some.mp hb
  exact hat.not_moves (.head (accepts.move ht) (args.moves ha)) (.inr ⟨hat, hh⟩)

theorem start : Opens σ stays (g.start m) (g'.start (m.widen inside)) :=
  .acceptWord (h.newRest m inside).follows (h.primary m inside)

/-- Links in front of the seam end where no member access and no call stands. -/
theorem newCallee (hh : ∀ c, halts c → c.next.token ≠ .punctuator .openParen) :
    Opens σ halts (g.newCallee m) (g'.newCallee (m.widen inside)) := by
  refine .seesWord fun _ => .check ?_
  refine .bind_at (h.start m inside) (fun operand => h.links m inside false operand) ?_
  intro operand e c _ hc hl
  obtain ⟨hdot, hbracket, -⟩ := links_stops hl
  exact ⟨hdot, hbracket, by simpa [Lexeme.is] using hh c hc⟩

theorem leftHandSide : Opens σ halts (g.leftHandSide m) (g'.leftHandSide (m.widen inside)) := by
  refine .bind_at (h.start m inside) (fun operand => h.links m inside true operand) ?_
  intro operand e c _ _ hl
  obtain ⟨hdot, hbracket, hparen⟩ := links_stops hl
  exact ⟨hdot, hbracket, hparen rfl⟩

/-! ## Operators -/

omit h in
theorem updateRest (operand : Expr) :
    Follows σ halts (updateRest operand) (Grammar.updateRest operand) := by
  refine .peek_or (.pure operand) (fun l hl => ?_) fun l => ?_
  · obtain ⟨token, newline, start, rest⟩ := l
    obtain rfl : token = σ.stop.token := hl
    rcases σ.stop with (_ | _ | _) | _ <;> rfl
  · have hu : updateOp? (σ.shiftLexeme l) = updateOp? l := rfl
    have hn : (σ.shiftLexeme l).newline = l.newline := rfl
    rw [hu, hn]
    cases updateOp? l with
    | none => exact .inr ⟨rfl, rfl⟩
    | some increment =>
      cases l.newline with
      | true => exact .inr ⟨rfl, rfl⟩
      | false => exact .inl (Leads.onToken (.check (Opens.advance.leads.bind fun _ => .pure _)))

theorem postfixed (operand : Expr) :
    Follows σ halts (g.postfixed m operand) (g'.postfixed (m.widen inside) operand) :=
  (h.links m inside true operand).bind updateRest

/-- Where `postfixed` takes nothing, no link stands. -/
theorem postfixed_stays {operand e : Expr} {c : Cursor} (hat : σ.AtSeam c) (hh : halts c)
    (hp : g.postfixed m operand c = some (e, c)) : stays c := by
  obtain ⟨chain, c₁, hl, hp⟩ := Parser.bind_eq_some.mp hp
  have behind : Follows σ halts _ _ := updateRest chain
  have links : Follows σ halts _ _ := h.links m false true operand
  rcases reflTransGen_iff_eq_or_transGen.mp (links.moves hl) with rfl | hm
  · obtain ⟨hdot, hbracket, hparen⟩ := links_stops hl
    exact ⟨hdot, hbracket, hparen rfl⟩
  · exact (hat.not_moves (hm.trans_left (behind.moves hp)) (.inr ⟨hat, hh⟩)).elim

theorem unaryExpression :
    Opens σ halts (g.unaryExpression m) (g'.unaryExpression (m.widen inside)) := by
  refine .peek fun l newline => ?_
  have hu : unaryOp? { σ.shiftLexeme l with newline := newline } = unaryOp? l := rfl
  have hp : updateOp? { σ.shiftLexeme l with newline := newline } = updateOp? l := rfl
  rw [hu, hp]
  cases unaryOp? l with
  | some op => exact Opens.advance.bind fun _ => (h.unary m inside).follows.map _
  | none =>
    cases updateOp? l with
    | some increment =>
      refine Opens.advance.bind fun _ => (h.unary m inside).follows.bind fun target => ?_
      exact Follows.check.bind fun _ => .pure _
    | none =>
      refine .ite (Opens.advance.bind fun _ => (h.unary m inside).follows.map _) ?_
      exact .bind_at (h.start m inside) (fun operand => h.postfixed m inside operand)
        fun operand e c hat hh hp => h.postfixed_stays m hat hh hp

theorem operators (level : Nat) (left : Expr) :
    Follows σ halts (g.operators m level left) (g'.operators (m.widen inside) level left) := by
  refine .iterate h.fuel (fun left => ?_) left
  refine .peek_or (.pure (.inr left)) (fun l hl => ?_) fun l => ?_
  · obtain ⟨token, newline, start, rest⟩ := l
    obtain rfl : token = σ.stop.token := hl
    rcases σ.stop with (_ | _ | _) | _ <;> rfl
  · have hi : infix? (m.widen inside) (σ.shiftLexeme l) = infix? m l := rfl
    rw [hi]
    cases infix? m l with
    | none => exact .inr ⟨rfl, rfl⟩
    | some found =>
      obtain ⟨op, opLevel⟩ := found
      by_cases hl : level < opLevel
      · simp only [hl, if_true]
        refine .inl (Opens.advance.bind fun _ => ?_).leads.onToken
        refine (h.operand m inside (rightLevel opLevel)).follows.bind fun right => ?_
        exact (Follows.lift _).bind fun _ => .pure _
      · simp only [hl, if_false]
        exact .inr ⟨trivial, trivial⟩

theorem operandAbove (level : Nat) :
    Opens σ halts (g.operandAbove m level) (g'.operandAbove (m.widen inside) level) := by
  have plain : Opens σ halts _ _ :=
    (h.unaryExpression m inside).bind fun left => h.operators m inside level left
  refine .peek fun l newline => ?_
  obtain ⟨token, newline', start, rest⟩ := l
  cases token with
  | privateName id =>
    refine .check (Opens.advance.bind fun _ => Opens.expectWord.follows.bind fun _ => ?_)
    exact (h.operand m inside comparisonLevel).follows.bind fun right =>
      h.operators m inside level _
  | _ => exact plain

/-! ## Assignments -/

theorem conditionalRest (test : Expr) :
    Follows σ halts (g.conditionalRest m test) (g'.conditionalRest (m.widen inside) test) := by
  refine .accept (Stop.ne (by decide) _) ?_ (.pure _)
  refine (h.assignment m.withIn inside).follows.bind fun yes => Opens.expect.follows.bind fun _ => ?_
  exact (h.assignment m inside).follows.bind fun _ => .pure _

theorem assignmentRest (left : Expr) :
    Follows σ halts (g.assignmentRest m left) (g'.assignmentRest (m.widen inside) left) := by
  refine .peek_or (h.conditionalRest m inside left) (fun l hl => ?_) fun l => ?_
  · obtain ⟨token, newline, start, rest⟩ := l
    obtain rfl : token = σ.stop.token := hl
    rcases σ.stop with (_ | _ | _) | _ <;> rfl
  · have ha : assignOp? (σ.shiftLexeme l) = assignOp? l := rfl
    rw [ha]
    cases assignOp? l with
    | none => exact .inr ⟨rfl, rfl⟩
    | some op =>
      refine .inl (Leads.onToken (.lift fun target => Opens.advance.leads.bind fun _ => ?_))
      exact (h.assignment m inside).follows.bind fun _ => .pure _

theorem assignmentFrom (operand : Expr) :
    Follows σ halts (g.assignmentFrom m operand) (g'.assignmentFrom (m.widen inside) operand) :=
  (h.postfixed m inside operand).bind fun first => (h.operators m inside 0 first).bind fun left =>
    h.assignmentRest m inside left

theorem yieldOperand :
    Follows σ halts (g.yieldOperand m) (g'.yieldOperand (m.widen inside)) := by
  refine .accept (Stop.ne (by decide) _) ?_ ?_
  · refine Leads.follows (.peek fun l => ?_)
    rw [Bool.not_true, Bool.and_false, Bool.and_false]
    exact (h.assignment m inside).leads.bind fun _ => .pure _
  · refine .peek_or (.pure (.yield false [])) (fun l hl => ?_) fun l => ?_
    · rw [endsYield_stop hl]
      rfl
    · have he : endsYield (σ.shiftLexeme l) = endsYield l := rfl
      rw [he]
      cases endsYield l with
      | true => exact .inr ⟨rfl, rfl⟩
      | false => exact .inl (Leads.onToken ((h.assignment m inside).leads.bind fun _ => .pure _))

theorem yieldRest : Opens σ halts (g.yieldRest m) (g'.yieldRest (m.widen inside)) := by
  have operand : Follows σ halts _ _ := h.yieldOperand m inside
  refine Opens.expectWord.bind fun _ => .peek (fun l => .ite (.pure _) operand) ?_
  intro c e hat hh hb
  have hclose : g'.yieldOperand (m.widen inside) (σ.moved c) =
      some (.yield false [], σ.moved c) := by
    have hstar : (σ.moved c).next.token ≠ .punctuator .star := by
      rw [hat.token]
      exact (Stop.ne (by decide) _).symm
    unfold Grammar.yieldOperand
    rw [(Parser.accept_accepts .star).bind_false hstar, Parser.peek_bind, endsYield_stop hat.token]
    rfl
  have he : e = .yield false [] := by
    split at hb
    · exact (Parser.pure_eq_some.mp hb).1.symm
    · have := operand.keeps hb (.inr ⟨hat, hh⟩)
      rw [hclose] at this
      exact (Prod.mk.inj (Option.some.inj this)).1.symm
  subst he
  split
  · rfl
  · exact hclose

/-- `async` before a parenthesis, behind the word. -/
theorem asyncParenBehind : Leads σ halts (g.asyncParenBehind m)
    (g'.asyncParenBehind (m.widen inside)) := by
  refine .peek fun l => Opens.expect.leads.bind fun _ => ?_
  refine (h.arguments m inside).follows.bind fun (items, comma) => ?_
  refine .seesArrow (.lift fun params => ?_) (h.assignmentFrom m inside _)
  exact (Follows.textFrom l.start).looks.bind fun text => h.arrowRest m inside true params text

theorem asyncParen : Opens σ halts (g.asyncParen m) (g'.asyncParen (m.widen inside)) := by
  exact Opens.expectWord.bind fun _ => (h.asyncParenBehind m inside).follows

theorem singleArrow (isAsync : Bool) :
    Opens σ halts (g.singleArrow m isAsync) (g'.singleArrow (m.widen inside) isAsync) := by
  refine .peek fun l _ => ?_
  refine (Opens.identifier { m with isAsync := m.isAsync || isAsync } inside).bind fun id => ?_
  exact (Follows.textFrom l.start).bind fun text =>
    (h.arrowRest m inside isAsync [.bind id] text).follows

/-! ## What an expression begins with -/

/-- Behind its name an arrow function takes its arrow. -/
theorem singleArrow_moves {isAsync : Bool} {c c' : Cursor} {e : Expr}
    (hs : g.singleArrow m isAsync c = some (e, c')) :
    TransGen Move (.front .inside c.next.rest) c' := by
  unfold Grammar.singleArrow at hs
  rw [Parser.peek_bind] at hs
  obtain ⟨id, c₁, hi, hs⟩ := Parser.bind_eq_some.mp hs
  obtain ⟨-, rfl⟩ := Parser.identifier_eq_some.mp hi
  have rest (text : String) : Leads σ never _ _ :=
    h.arrowRest m false isAsync [.bind id] text
  exact (rest _).moves hs

theorem asyncArrow_behind {c c' : Cursor} {e : Expr}
    (hs : (Parser.expectWord "async" >>= fun _ => g.singleArrow m true) c = some (e, c')) :
    TransGen Move (.front .inside c.next.rest) c' := by
  obtain ⟨_, c₁, hw, hs⟩ := Parser.bind_eq_some.mp hs
  obtain ⟨ht, rfl⟩ := Parser.expectWord_eq_some.mp hw
  have arrow : Opens σ never _ _ := h.singleArrow m false true
  exact arrow.moves hs

theorem asyncArrow_moves {c c' : Cursor} {e : Expr}
    (hs : (Parser.expectWord "async" >>= fun _ => g.singleArrow m true) c = some (e, c')) :
    TransGen Move (.front .inside c.second.rest) c' := by
  obtain ⟨_, c₁, hw, hs⟩ := Parser.bind_eq_some.mp hs
  obtain ⟨ht, rfl⟩ := Parser.expectWord_eq_some.mp hw
  rw [Cursor.second_of_word ht]
  exact h.singleArrow_moves m hs

theorem asyncParen_moves {c c' : Cursor} {e : Expr} (hs : g.asyncParen m c = some (e, c')) :
    TransGen Move (.front .inside c.next.rest) c' := by
  obtain ⟨_, c₁, hw, hs⟩ := Parser.bind_eq_some.mp hs
  obtain ⟨-, rfl⟩ := Parser.expectWord_eq_some.mp hw
  have behind : Leads σ never _ _ := h.asyncParenBehind m false
  exact behind.moves hs

theorem assignmentBehind (o : Opening) : Opens σ halts (g.assignmentBehind m o)
    (g'.assignmentBehind (m.widen inside) o) := by
  cases o with
  | arrow => exact h.singleArrow m inside false
  | asyncArrow => exact Opens.expectWord.bind fun _ => (h.singleArrow m inside true).follows
  | asyncParen => exact h.asyncParen m inside
  | yields => exact h.yieldRest m inside
  | paren =>
    exact h.parenthesized_then m inside (h.assignmentFrom m inside) (h.arrowRest m inside false)
  | other =>
    exact (h.operandAbove m inside 0).bind fun left => h.assignmentRest m inside left

theorem assignmentExpression :
    Opens σ halts (g.assignmentExpression m) (g'.assignmentExpression (m.widen inside)) := by
  have run (g : Grammar) (m : Mode) (c : Cursor) : g.assignmentExpression m c =
      g.assignmentBehind m (openingAt m c.next c.second) c :=
    Parser.bind_of_eq_some (opening_eq m c)
  have behind (o : Opening) : Opens σ halts _ _ := h.assignmentBehind m inside o
  refine ⟨fun {c e c'} hp => ?_, fun {c d e c'} hd hp hok => ?_⟩
  · rw [run] at hp
    exact (behind _).moves hp
  · rw [run] at hp ⊢
    rcases hd.openingAt ((behind _).moves hp) hok m inside with ho | ⟨hat, ho⟩ | ⟨hat, ho⟩
    · rw [ho]
      exact (behind _).meets hd hp hok
    · refine (hat.not_moves ?_ hok).elim
      rcases ho with ho | ho | ho
      · rw [ho] at hp
        exact h.singleArrow_moves m hp
      · rw [ho] at hp
        exact h.asyncParen_moves m hp
      · rw [ho] at hp
        exact h.asyncArrow_behind m hp
    · rw [ho] at hp
      exact (hat.not_moves (h.asyncArrow_moves m hp) hok).elim

end Agrees

end Collector.Script
