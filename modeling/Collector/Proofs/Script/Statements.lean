import Collector.Proofs.Script.Ending

/-!
# Statements across a seam

A statement that ends where a block ends on the old side ends there on the new one, or with the
semicolon that stands there. What a statement is may hang on its second token or its third; where
the seam stands before one of them, nothing that the statement could be takes a token behind it.
-/

namespace Collector.Script

open Relation

variable {α β : Type} {σ : Seam} {halts : Cursor → Prop}

/-! ## Kinds of declarations -/

namespace Grammar

/-- Whether a lexeme is a name that `using` declares. -/
def isUsable (place : DeclarationPlace) (l : Lexeme) : Bool :=
  isNameOnLine l && (place == .statement || !l.isWord "of")

/-- The kind of a declaration with `using`, by the conditions that tell it. -/
def usingOf (begins awaits usable behind : Bool) : Option DeclarationKind :=
  if begins then if usable then some .using else none
  else if awaits && behind then some .awaitUsing
  else none

/-- The kind of a declaration with `using` that begins with two lexemes. -/
def usingAt (place : DeclarationPlace) (next second : Lexeme) : Option DeclarationKind :=
  usingOf (next.isWord "using") (next.isWord "await" && second.isWord "using" && !second.newline)
    (isUsable place second) (isUsable place (lex .inside second.rest))

/-- The kind of a declaration that begins with two lexemes in the head of a loop. -/
def headAt (next second : Lexeme) : Option DeclarationKind :=
  if next.isWord "var" then some .var
  else if next.isWord "const" then some .const
  else if next.isWord "let" && beginsPattern second then some .letting
  else usingAt .head next second

theorem usingOf_await (begins awaits usable behind : Bool) :
    usingOf begins awaits usable false = usingOf begins awaits usable behind ∨
      usingOf begins awaits usable behind = some .awaitUsing := by
  cases begins <;> cases awaits <;> cases behind <;> simp [usingOf]

theorem usingKind?_eq (place : DeclarationPlace) (c : Cursor) :
    usingKind? place c = some (usingAt place c.next c.second, c) := by
  unfold usingKind? usingAt usingOf
  rw [Parser.peek_bind, Parser.bind_of_eq_some (Parser.peekSecond_eq c)]
  dsimp only
  split
  · rfl
  · split
    next h =>
      rw [h, Bool.true_and]
      rfl
    next h =>
      rw [Bool.not_eq_true] at h
      rw [h]
      rfl

theorem headKind?_eq (c : Cursor) : headKind? c = some (headAt c.next c.second, c) := by
  unfold headKind? headAt
  rw [Parser.peek_bind, Parser.bind_of_eq_some (Parser.peekSecond_eq c)]
  split
  · rfl
  · split
    · rfl
    · split
      · rfl
      · exact usingKind?_eq .head c

theorem isUsable_stop {stop : Stop} {l : Lexeme} (h : l.token = stop.token)
    (place : DeclarationPlace) : isUsable place l = false := by
  cases stop <;> simp [isUsable, isNameOnLine, Lexeme.identifier?, h, Stop.token]

theorem beginsPattern_stop {stop : Stop} {l : Lexeme} (h : l.token = stop.token) :
    beginsPattern l = false := by
  rcases stop with (_ | _ | _) | _ <;> simp [beginsPattern, h, Stop.token, Closer.punctuator]

theorem usingAt_other {next : Lexeme} (h : ¬ ∃ id escaped, next.token = .word id escaped)
    (place : DeclarationPlace) (second : Lexeme) : usingAt place next second = none := by
  have hn (word : String) : next.isWord word = false :=
    Bool.eq_false_iff.mpr fun hw => h (Lexeme.word_of_isWord hw)
  simp [usingAt, usingOf, hn]

theorem declarationWords_leads (kind : DeclarationKind) :
    Leads σ halts (declarationWords kind) (declarationWords kind) := by
  cases kind with
  | awaitUsing => exact Opens.advance.leads.bind fun _ => Opens.advance.follows
  | _ => exact Opens.advance.leads

/-- Behind the words of a declaration stands what follows them. -/
theorem declarationWords_moves {kind : DeclarationKind} {k : Unit → Parser β} {c c' : Cursor}
    {b : β} (hk : ∀ {c₁ b}, k () c₁ = some (b, c') → TransGen Move c₁ c')
    (h : (declarationWords kind >>= k) c = some (b, c')) :
    TransGen Move (.front .inside c.next.rest) c' ∧
      (kind = .awaitUsing → TransGen Move (.front .inside c.second.rest) c') := by
  obtain ⟨_, c₁, hw, hk₁⟩ := Parser.bind_eq_some.mp h
  cases kind with
  | awaitUsing =>
    obtain ⟨_, c₂, ha, hw⟩ := Parser.bind_eq_some.mp hw
    obtain ⟨hr, rfl⟩ := Parser.advance_eq_some.mp ha
    obtain ⟨hr₂, rfl⟩ := Parser.advance_eq_some.mp hw
    rw [Cursor.second_of_real hr]
    exact ⟨.head (.next hr₂) (hk hk₁), fun _ => hk hk₁⟩
  | _ =>
    obtain ⟨hr, rfl⟩ := Parser.advance_eq_some.mp hw
    exact ⟨hk hk₁, nofun⟩

end Grammar

/-- The two sides agree on the kind of a declaration, unless the seam stands behind one of the
words that tell it. -/
def Seam.Tells (σ : Seam) (halts : Cursor → Prop)
    (kindAt : Lexeme → Lexeme → Option DeclarationKind) : Prop :=
  ∀ {c c' : Cursor}, TransGen Move c c' → σ.Ok halts c' →
    kindAt (σ.moved c).next (σ.moved c).second = kindAt c.next c.second ∨
      ∃ kind, kindAt c.next c.second = some kind ∧
        (σ.AtSeam (.front .inside c.next.rest) ∨
          kind = .awaitUsing ∧ σ.AtSeam (.front .inside c.second.rest))

theorem Seam.tells_using (place : Grammar.DeclarationPlace) :
    σ.Tells halts (Grammar.usingAt place) := by
  intro c c' hm hok
  have hn := (passed_of_moves hm hok).next
  by_cases hw : ∃ id escaped, c.next.token = .word id escaped
  · obtain ⟨id, escaped, hw⟩ := hw
    have hx : c.second = (Cursor.front .inside c.next.rest).next := Cursor.second_of_word hw
    have hs : (σ.moved c).second = (σ.moved (.front .inside c.next.rest)).next := by
      rw [Cursor.second_of_word (show (σ.moved c).next.token = _ by rw [hn]; exact hw), hn]
      rfl
    unfold Grammar.usingAt
    rw [hs, hn]
    rcases ok_of_moves (moves_behind_word hm (by rw [hw]; rfl)) hok with hp | ⟨hat, -⟩
    · rw [hp.next, ← hx]
      cases hu : c.second.isWord "using" with
      | false =>
        have hu' : (σ.shiftLexeme c.second).isWord "using" = false := hu
        left
        rw [hu', Bool.and_false, Bool.and_false, Bool.false_and, Bool.false_and]
        rfl
      | true =>
        have hword := hp.word "using" false (by simpa [Lexeme.isWord, hx] using hu)
        rw [← hx] at hword
        rcases hword with hsees | hat
        · have hthird : lex .inside (σ.shiftLexeme c.second).rest =
              σ.shiftLexeme (lex .inside c.second.rest) := hsees.next
          rw [hthird]
          have hu' : (σ.shiftLexeme c.second).isWord "using" = true := hu
          rw [hu']
          exact .inl rfl
        · have hthird : Grammar.isUsable place (lex .inside (σ.shiftLexeme c.second).rest) = false :=
            Grammar.isUsable_stop hat.token place
          have hu' : (σ.shiftLexeme c.second).isWord "using" = true := hu
          rw [hthird, hu']
          rcases Grammar.usingOf_await (c.next.isWord "using")
            (c.next.isWord "await" && true && !c.second.newline) (Grammar.isUsable place c.second)
            (Grammar.isUsable place (lex .inside c.second.rest)) with hsame | hkind
          · exact .inl hsame
          · exact .inr ⟨_, hkind, .inr ⟨rfl, hat⟩⟩
    · have hfalse : (σ.moved (.front .inside c.next.rest)).next.isWord "using" = false := by
        simp [Lexeme.isWord, hat.token]
      rw [hfalse, Grammar.isUsable_stop hat.token, Bool.and_false, Bool.false_and]
      have hnone : Grammar.usingOf ((σ.shiftLexeme c.next).isWord "using") false false
          (Grammar.isUsable place
            (lex .inside (σ.moved (.front .inside c.next.rest)).next.rest)) = none := by
        simp [Grammar.usingOf]
      rw [hnone]
      cases Grammar.usingOf (c.next.isWord "using")
        (c.next.isWord "await" && c.second.isWord "using" && !c.second.newline)
        (Grammar.isUsable place c.second) (Grammar.isUsable place (lex .inside c.second.rest)) with
      | none => exact .inl rfl
      | some kind => exact .inr ⟨kind, rfl, .inl hat⟩
  · left
    rw [Grammar.usingAt_other hw, Grammar.usingAt_other (by rw [hn]; exact hw)]

theorem Seam.tells_head : σ.Tells halts Grammar.headAt := by
  intro c c' hm hok
  have hn := (passed_of_moves hm hok).next
  have hword (word : String) : (σ.moved c).next.isWord word = c.next.isWord word := by rw [hn]; rfl
  unfold Grammar.headAt
  rw [hword, hword, hword]
  split
  · exact .inl rfl
  · split
    · exact .inl rfl
    · cases hl : c.next.isWord "let" with
      | false =>
        rw [Bool.false_and, Bool.false_and]
        exact σ.tells_using .head hm hok
      | true =>
        obtain ⟨id, escaped, hw⟩ := Lexeme.word_of_isWord hl
        have hother (second : Lexeme) (l : Lexeme) (h : l.token = c.next.token) :
            Grammar.usingAt .head l second = none := by
          have ht : l.token = .word "let" false := by simpa [Lexeme.isWord, h] using hl
          simp [Grammar.usingAt, Grammar.usingOf, Lexeme.isWord, ht]
        rw [hother _ _ rfl, hother _ _ (by rw [hn]; rfl), Bool.true_and, Bool.true_and]
        rcases (passed_of_moves hm hok).meets.second hm hok hw with hs | ⟨hs, rfl, hat, -⟩
        · rw [hs]
          exact .inl rfl
        · rw [Grammar.beginsPattern_stop hs]
          cases Grammar.beginsPattern c.second with
          | false => exact .inl rfl
          | true => exact .inr ⟨_, rfl, .inl hat⟩

/-- A look at the kind of a declaration, in front of a parser that takes its words. -/
theorem Ends.kind {kindAt : Lexeme → Lexeme → Option DeclarationKind}
    {look : Parser (Option DeclarationKind)} {k k' : Option DeclarationKind → Parser β}
    (hlook : ∀ c, look c = some (kindAt c.next c.second, c)) (htells : σ.Tells halts kindAt)
    (hk : ∀ o, Ends σ halts (k o) (k' o))
    (hm : ∀ {kind c c' b}, k (some kind) c = some (b, c') →
      TransGen Move (.front .inside c.next.rest) c' ∧
        (kind = .awaitUsing → TransGen Move (.front .inside c.second.rest) c')) :
    Ends σ halts (look >>= k) (look >>= k') := by
  refine ⟨fun {c b c'} hb => ?_, fun {c b c'} hb hok => ?_⟩
  · rw [Parser.bind_of_eq_some (hlook c)] at hb
    exact (hk _).moves hb
  · rw [Parser.bind_of_eq_some (hlook c)] at hb
    rw [Parser.bind_of_eq_some (hlook (σ.moved c))]
    rcases htells ((hk _).moves hb) hok with hsame | ⟨kind, hkind, hat⟩
    · rw [hsame]
      exact (hk _).keeps hb hok
    · rw [hkind] at hb
      obtain ⟨hfirst, hsecond⟩ := hm hb
      rcases hat with hat | ⟨hawait, hat⟩
      · exact (hat.not_moves hfirst hok).elim
      · exact (hat.not_moves (hsecond hawait) hok).elim

namespace Agrees

open Grammar

variable {g g' : Grammar} (h : Agrees σ g g') (m : Mode) (inside : Bool)

/-! ## Declarations -/

section Declarations

include h

theorem declarator (kind : DeclarationKind) :
    Opens σ halts (g.declarator m kind) (g'.declarator (m.widen inside) kind) := by
  refine (h.binding m inside).bind fun pattern => Follows.check.bind fun _ => ?_
  exact .accept (Stop.ne (by decide) _)
    ((h.assignment m inside).follows.bind fun _ => .pure _) (.pure _)

theorem declarators (kind : DeclarationKind) :
    Opens σ halts (g.declarators m kind) (g'.declarators (m.widen inside) kind) :=
  .iterate h.fuel (fun _ => (h.declarator m inside kind).bind fun _ =>
    .accept (Stop.ne (by decide) _) (.pure _) (.pure _)) []

theorem declaration (hb : σ.Blocks halts) (kind : DeclarationKind) :
    Ends σ halts (g.declaration m kind) (g'.declaration (m.widen inside) kind) :=
  (h.declarators m inside kind).leads.then_finish fun patterns => Follows.check.then_finish fun _ =>
    (Finishes.endStatement hb).then_pure fun _ => Statement.declare kind patterns

/-! ## Parts of statements -/

theorem condition : Opens σ halts (g.condition m) (g'.condition (m.widen inside)) :=
  Opens.expect.bind fun _ => (h.expression m.withIn inside).follows.bind fun _ =>
    Opens.expect.follows.bind fun _ => .pure _

theorem single (hb : σ.Blocks halts) : Ends σ halts (g.single m) (g'.single (m.widen inside)) :=
  h.statement hb m inside false

theorem expressionStatement (hb : σ.Blocks halts) :
    Ends σ halts (g.expressionStatement m) (g'.expressionStatement (m.widen inside)) := by
  have plain (e : Expr) := (Finishes.endStatement hb).then_pure fun _ => Statement.expression e
  refine (h.expression m.withIn inside).leads.then_finish fun e => ?_
  cases e with
  | name id =>
    refine (Follows.accept_self (Stop.ne (by decide) _)).then_finish fun _ => .ite ?_ (plain _)
    exact ((h.single m inside hb).then_pure (Statement.labelled id)).finishes
  | _ => exact plain _

/-- The statement that a `let` begins; where the seam stands behind the word, it is a name. -/
theorem letStatement (hb : σ.Blocks halts) (inList : Bool) :
    Ends σ halts (onToken (· == .word "let" false) (g.letStatement m inList))
      (onToken (· == .word "let" false) (g'.letStatement (m.widen inside) inList)) := by
  have named := (Finishes.endStatement hb).then_pure fun _ => Statement.expression (.name "let")
  refine .peekSecond_word (fun second => ?_) fun {c s second'} hw hat hh hp hs hsecond => ?_
  · refine .ite (h.expressionStatement m inside hb) ?_
    refine Opens.advance.leads.then_finish fun _ => .ite named ?_
    exact (Ends.check (h.declaration m inside hb .letting)).finishes
  · have hold : c.second.token = .punctuator .closeBrace ∨
        c.second.token = .punctuator .semicolon ∧ σ.stop = .closer .semicolon := by
      rw [Cursor.second_of_word hw]
      exact (hb _ hh).1
    have hstay {l : Lexeme} {stop : Stop} (hl : l.token = stop.token) :
        continuesName l = false ∧ l.is .openBracket = false := by
      rcases stop with (_ | _ | _) | _ <;>
        simp [continuesName, assignOp?, infix?, Lexeme.punctuator?, Lexeme.is, hl,
          Stop.token, Closer.punctuator]
    obtain ⟨hc, hbracket⟩ : continuesName c.second = false ∧ c.second.is .openBracket = false := by
      rcases hold with hold | ⟨hold, -⟩
      · exact @hstay _ (.closer .brace) hold
      · exact @hstay _ (.closer .semicolon) hold
    obtain ⟨hc', hbracket'⟩ := hstay hsecond
    rw [hc, if_neg (by decide), hbracket] at hs
    rw [hc', if_neg (by decide), hbracket']
    obtain ⟨_, c₁, ha, hs⟩ := Parser.bind_eq_some.mp hs
    obtain ⟨hr, rfl⟩ := Parser.advance_eq_some.mp ha
    have hn := hp.next
    rw [Parser.bind_of_eq_some (Parser.advance_of_real (by rw [hn]; exact hr)), hn]
    cases hsemi : c.second.is .semicolon with
    | true =>
      have hstop : σ.stop = .closer .semicolon := by
        rcases hold with hold | ⟨-, hstop⟩
        · simp [Lexeme.is, hold] at hsemi
        · exact hstop
      rw [hsemi, if_pos (by simp)] at hs
      rw [if_pos (by simp [Lexeme.is, hsecond, hstop, Stop.token, Closer.punctuator])]
      have keeps := named.keeps hs
      exact keeps (.inr ⟨hat, hh⟩)
    | false =>
      rw [hsemi] at hs
      cases inList with
      | true =>
        have declares := h.declaration m inside hb .letting
        exact (hat.not_moves (declares.moves hs) (.inr ⟨hat, hh⟩)).elim
      | false =>
        rw [if_pos (by simp)] at hs ⊢
        have keeps := named.keeps hs
        exact keeps (.inr ⟨hat, hh⟩)

theorem functionStatement (inList : Bool) : Opens σ halts (g.functionStatement m inList)
    (g'.functionStatement (m.widen inside) inList) :=
  (h.function m inside true).bind fun _ => Follows.check.bind fun _ => Follows.check.bind fun _ =>
    .pure _

theorem classStatement (inList : Bool) :
    Opens σ halts (g.classStatement m inList) (g'.classStatement (m.widen inside) inList) :=
  (h.classOf m inside true).bind fun _ => Follows.check.bind fun _ => .pure _

theorem ifStatement (hb : σ.Blocks halts) :
    Ends σ halts (g.ifStatement m) (g'.ifStatement (m.widen inside)) := by
  refine Opens.expectWord.leads.then_finish fun _ =>
    (h.condition m inside).follows.then_finish fun test => Ends.finishes ?_
  refine (h.single m inside hb).bind (fun yes => ?_) fun yes s c hat hh hstop hs => ?_
  · refine (Follows.acceptWord_self "else").then_finish fun _ => .ite ?_ (.pure _)
    exact (((h.single m inside hb).map List.singleton).then_pure (Statement.ifElse test yes)).finishes
  · have accepts := Parser.acceptWord_accepts "else"
    obtain ⟨hold, -, helse⟩ := hb c hh
    rw [accepts.bind_false (by rcases hold with hold | ⟨hold, -⟩ <;> simp [hold])] at hs
    obtain ⟨rfl, -⟩ := Parser.pure_eq_some.mp hs
    refine accepts.bind_false fun ht => ?_
    have ht : (lex .inside σ.new.tail).token = .word "else" false := ht
    simpa [Lexeme.isWord, ht] using helse hstop

/-! ## Loops -/

theorem whileStatement (hb : σ.Blocks halts) :
    Ends σ halts (g.whileStatement m) (g'.whileStatement (m.widen inside)) :=
  Opens.expectWord.leads.then_finish fun _ => (h.condition m inside).follows.then_finish fun test =>
    ((h.single m inside hb).then_pure (Statement.while test)).finishes

theorem doStatement (hb : σ.Blocks halts) :
    Ends σ halts (g.doStatement m) (g'.doStatement (m.widen inside)) := by
  have body : Leads σ never _ _ := (h.single m inside .never).leads .never
  refine Opens.expectWord.leads.then_finish fun _ => Ends.finishes ?_
  refine body.follows.looks.then_end fun body => ?_
  refine Opens.expectWord.leads.then_finish fun _ => ?_
  exact (h.condition m inside).follows.then_finish fun test => .accept_semicolon hb _

theorem optionalExpression (stop : Punctuator) : Leads σ halts (g.optionalExpression m stop)
    (g'.optionalExpression (m.widen inside) stop) :=
  .accept (.pure _) ((h.expression m.withIn inside).leads.bind fun _ =>
    Opens.expect.follows.bind fun _ => .pure _)

theorem loopRest (hb : σ.Blocks halts) (init : List Statement) :
    Ends σ halts (g.loopRest m init) (g'.loopRest (m.widen inside) init) :=
  Opens.expect.leads.then_finish fun _ =>
    (h.optionalExpression m inside .semicolon).follows.then_finish fun test =>
      (h.optionalExpression m inside .closeParen).follows.then_finish fun update =>
        ((h.single m inside hb).then_pure (Statement.loop init test update)).finishes

theorem forInRest (hb : σ.Blocks halts) (kind : Option DeclarationKind) (head : List Pattern) :
    Ends σ halts (g.forInRest m kind head) (g'.forInRest (m.widen inside) kind head) :=
  (h.expression m.withIn inside).leads.then_finish fun object =>
    Opens.expect.follows.then_finish fun _ =>
      ((h.single m inside hb).then_pure (Statement.forIn kind head object)).finishes

theorem forOfRest (hb : σ.Blocks halts) (isAwait : Bool) (kind : Option DeclarationKind)
    (head : List Pattern) : Ends σ halts (g.forOfRest m isAwait kind head)
      (g'.forOfRest (m.widen inside) isAwait kind head) :=
  (h.assignment m.withIn inside).leads.then_finish fun items =>
    Opens.expect.follows.then_finish fun _ =>
      ((h.single m inside hb).then_pure (Statement.forOf isAwait kind head items)).finishes

end Declarations

end Agrees

namespace Grammar

/-- A loop behind the patterns that its head declares. -/
def forPatterns (g : Grammar) (m : Mode) (isAwait : Bool) (kind : DeclarationKind)
    (patterns : List Pattern) : Parser Statement := do
  if ← Parser.acceptWord "in" then
    Parser.check (!isAwait)
    g.forInRest m (some kind) patterns
  else if ← Parser.acceptWord "of" then g.forOfRest m isAwait (some kind) patterns
  else
    Parser.check (!isAwait && patterns.all fun pattern => !needsValue kind pattern)
    g.loopRest m [.declare kind patterns]

/-- A loop behind the expression that its head begins with. -/
def forHead (g : Grammar) (m : Mode) (isAwait asyncOf : Bool) (head : Expr) : Parser Statement := do
  if ← Parser.acceptWord "in" then
    Parser.check (!isAwait)
    let target ← Parser.lift head.target?
    g.forInRest m none [target]
  else if ← Parser.acceptWord "of" then
    Parser.check (isAwait || !asyncOf)
    let target ← Parser.lift head.target?
    g.forOfRest m isAwait none [target]
  else
    Parser.check (!isAwait)
    g.loopRest m [.expression head]

end Grammar

namespace Agrees

open Grammar

variable {g g' : Grammar} (h : Agrees σ g g') (m : Mode) (inside : Bool)

include h

theorem forPatterns (hb : σ.Blocks halts) (isAwait : Bool) (kind : DeclarationKind)
    (patterns : List Pattern) : Ends σ halts (g.forPatterns m isAwait kind patterns)
      (g'.forPatterns (m.widen inside) isAwait kind patterns) := by
  refine (Follows.acceptWord_self "in").looks.then_end fun _ => .ite ?_ ?_
  · exact .check (h.forInRest m inside hb _ _)
  · refine (Follows.acceptWord_self "of").looks.then_end fun _ => .ite ?_ ?_
    · exact h.forOfRest m inside hb isAwait _ _
    · exact .check (h.loopRest m inside hb _)

theorem forDeclared (hb : σ.Blocks halts) (isAwait : Bool) (kind : DeclarationKind) :
    Ends σ halts (g.forDeclared m isAwait kind) (g'.forDeclared (m.widen inside) isAwait kind) := by
  exact (declarationWords_leads kind).then_finish fun _ =>
    (h.declarators m.withoutIn inside kind).follows.then_finish fun patterns =>
      (h.forPatterns m inside hb isAwait kind patterns).finishes

theorem forHead (hb : σ.Blocks halts) (isAwait asyncOf : Bool) (head : Expr) :
    Ends σ halts (g.forHead m isAwait asyncOf head)
      (g'.forHead (m.widen inside) isAwait asyncOf head) := by
  refine (Follows.acceptWord_self "in").looks.then_end fun _ => .ite ?_ ?_
  · refine .check ((Follows.lift _).looks.then_end fun target => h.forInRest m inside hb _ _)
  · refine (Follows.acceptWord_self "of").looks.then_end fun _ => .ite ?_ ?_
    · exact .check ((Follows.lift _).looks.then_end fun target => h.forOfRest m inside hb _ _ _)
    · exact .check (h.loopRest m inside hb _)

/-- The head of a loop takes more than its first word, so that the second one is before the seam. -/
theorem forExpression (hb : σ.Blocks halts) (isAwait : Bool) :
    Ends σ halts (g.forExpression m isAwait) (g'.forExpression (m.widen inside) isAwait) := by
  have rest (asyncOf : Bool) (head : Expr) := h.forHead m inside hb isAwait asyncOf head
  have first : Opens σ never _ _ := h.expression m.withoutIn inside
  have both (asyncOf : Bool) := (h.expression m.withoutIn inside).leads.then_finish fun head =>
    (rest asyncOf head).finishes
  have marks : σ.Marks fun next second => next.isWord "async" && second.isWord "of" := by
    refine ⟨fun htest => ?_, fun _ _ => rfl, fun _ _ hsecond => ?_⟩
    · exact Lexeme.word_of_isWord (Bool.and_eq_true_iff.mp htest).1
    · simp [Lexeme.isWord, hsecond]
  refine Ends.peekTest _ marks both fun {c s c'} hs hword => ?_
  obtain ⟨id, escaped, hw⟩ := hword
  obtain ⟨head, c₁, he, hs⟩ := Parser.bind_eq_some.mp hs
  exact TransGen.trans_right (moves_behind_word (first.moves he) (by rw [hw]; rfl))
    ((rest true head).moves hs)

theorem forStatement (hb : σ.Blocks halts) :
    Ends σ halts (g.forStatement m) (g'.forStatement (m.widen inside)) := by
  refine Opens.expectWord.leads.then_finish fun _ =>
    (Follows.acceptWord_self "await").then_finish fun isAwait => Follows.check.then_finish fun _ =>
      Opens.expect.follows.then_finish fun _ => Ends.finishes ?_
  refine .sees fun _ => .ite (.check (h.loopRest m inside hb [])) ?_
  refine .kind headKind?_eq σ.tells_head (fun kind => ?_) fun {kind c c' s} hs => ?_
  · cases kind with
    | some kind => exact h.forDeclared m inside hb isAwait kind
    | none => exact h.forExpression m inside hb isAwait
  · refine declarationWords_moves (fun {c₁ s} hs => ?_) hs
    have patterns : Opens σ never _ _ := h.declarators m.withoutIn inside kind
    obtain ⟨found, c₂, hd, hs⟩ := Parser.bind_eq_some.mp hs
    exact (patterns.moves hd).trans ((h.forPatterns m inside hb isAwait kind found).moves hs)

/-! ## Jumps -/

omit h in
theorem jumpLabel (hb : σ.Blocks halts) :
    Finishes σ halts (jumpLabel m) (jumpLabel (m.widen inside)) := by
  refine .seesEnd hb ((Finishes.endStatement hb).then_pure fun _ => none) ?_
  exact ((Opens.identifier m inside).map some).leads.then_finish fun label =>
    (Finishes.endStatement hb).then_pure fun _ => label

theorem returnStatement (hb : σ.Blocks halts) :
    Ends σ halts (g.returnStatement m) (g'.returnStatement (m.widen inside)) := by
  have done (value : List Expr) := (Finishes.endStatement hb).then_pure fun _ => Statement.return value
  have widens : m.isFunction = true → (m.widen inside).isFunction = true := fun hm => by
    simp [Mode.widen, hm]
  refine Opens.expectWord.leads.then_finish fun _ => (Follows.check_imp widens).then_finish fun _ => ?_
  refine .seesEnd hb (done []) ?_
  exact ((h.expression m.withIn inside).map List.singleton).leads.then_finish done

theorem throwStatement (hb : σ.Blocks halts) :
    Ends σ halts (g.throwStatement m) (g'.throwStatement (m.widen inside)) := by
  refine Opens.expectWord.leads.then_finish fun _ => Ends.finishes (.peek fun l => .check ?_)
  exact (h.expression m.withIn inside).leads.then_finish fun value =>
    (Finishes.endStatement hb).then_pure fun _ => Statement.throw value

/-! ## Statements with blocks -/

theorem caseTest : Leads σ halts (g.caseTest m) (g'.caseTest (m.widen inside)) := by
  refine .acceptWord (Opens.expect.follows.bind fun _ => .pure _) ?_
  exact Opens.expectWord.leads.bind fun _ => (h.expression m.withIn inside).follows.bind fun _ =>
    Opens.expect.follows.bind fun _ => .pure _

theorem branch : Leads σ never (g.branch m) (g'.branch (m.widen inside)) := by
  have statement : Leads σ never _ _ := (h.statement .never m inside true).leads .never
  refine (h.caseTest m inside).bind fun test => .iterate h.fuel (fun statements => ?_) []
  exact .peek_never fun next => .ite (.pure _) (statement.follows.bind fun _ => .pure _)

theorem switchStatement :
    Opens σ halts (g.switchStatement m) (g'.switchStatement (m.widen inside)) := by
  refine Opens.expectWord.bind fun _ => (h.condition m inside).follows.bind fun value =>
    Opens.expect.follows.bind fun _ =>
      Leads.follows (.iterate_rounds h.fuel (fun cases k k' hk => ?_) [])
  rw [bind_assoc, bind_assoc]
  refine .accept (.pure _) ?_
  rw [if_neg (by decide), if_neg (by decide), bind_assoc, bind_assoc]
  exact (h.branch m inside).follows.looks.bind fun x => hk (x :: cases)

theorem handlerParameter :
    Follows σ never (g.handlerParameter m) (g'.handlerParameter (m.widen inside)) :=
  .accept (Stop.ne (by decide) _) ((h.binding m inside).follows.bind fun _ =>
    Opens.expect.follows.bind fun _ => .pure _) (.pure _)

end Agrees

namespace Grammar

/-- A statement with `try` behind its handler. -/
def tryRest (g : Grammar) (m : Mode) (body : List Statement) (handled : Bool)
    (param : List Pattern) (handler : List Statement) : Parser Statement := do
  let finished ← Parser.acceptWord "finally"
  let finalizer ← if finished then (fun s => [Statement.block s]) <$> g.braces m else pure []
  Parser.check (handled || finished)
  return .try body param handler finalizer

/-- An entry of the attributes of an import. -/
def importAttribute : Parser Unit := do
  let _ ← outerName
  Parser.expect .colon
  match (← Parser.peek).token with
  | .string _ => Parser.advance
  | _ => failure

/-- The end of an import or an export behind the string, with attributes or without. -/
def sourceRest (g : Grammar) (attributes : Bool) : Parser Unit := do
  if attributes then
    Parser.advance
    Parser.expect .openBrace
    let _ ← g.listUntil .closeBrace importAttribute
  Parser.endStatement

/-- The end of an export of names that `from` may follow. -/
def exportRest (g : Grammar) (names : List (List String)) (isFrom : Bool) : Parser Statement := do
  if isFrom then
    g.fromSource
    return .exports [] []
  else
    Parser.endStatement
    return .exports [] names.flatten

/-- Whether two lexemes are the phase of an import and what stands behind it. -/
def phaseAt (next second : Lexeme) : Bool :=
  next.isWord "defer" && second.is .star ||
    next.isWord "source" && match second.token with
      | .word id _ => id != "from" || (lex .inside second.rest).isWord "from"
      | _ => false

/-- The names that an import binds. -/
def importNames (g : Grammar) (m : Mode) : Parser Unit := do
  if (← Parser.sees .star) || (← Parser.sees .openBrace) then g.importGroup m
  else
    let _ ← Parser.identifier m
    if ← Parser.accept .comma then g.importGroup m

/-- An import that binds names, behind its phase. -/
def importFrom (g : Grammar) (m : Mode) : Parser Statement := do
  g.importNames m
  g.fromSource
  return .imports

theorem importPhase_eq (c : Cursor) :
    importPhase c = (if phaseAt c.next c.second then Parser.advance else pure ()) c := by
  unfold importPhase phaseAt
  rw [Parser.peek_bind, Parser.bind_of_eq_some (Parser.peekSecond_eq c)]
  cases c.next.isWord "defer" && c.second.is .star with
  | true => rfl
  | false => rfl

theorem importRest_eq (g : Grammar) (m : Mode) : g.importRest m = (do
    match (← Parser.peek).token with
    | .string _ =>
      g.source
      return .imports
    | _ =>
      importPhase
      g.importFrom m) := by
  unfold importRest importFrom importNames
  refine congrArg (Parser.peek >>= ·) (funext fun next => ?_)
  cases next.token with
  | string value => rfl
  | _ =>
    refine congrArg (importPhase >>= ·) (funext fun _ => ?_)
    simp only [bind_assoc]
    refine congrArg (Parser.sees .star >>= ·) (funext fun star => ?_)
    refine congrArg (Parser.sees .openBrace >>= ·) (funext fun brace => ?_)
    cases star || brace with
    | true => rfl
    | false =>
      simp only [Bool.false_eq_true, if_false, bind_assoc]
      refine congrArg (Parser.identifier m >>= ·) (funext fun _ => ?_)
      refine congrArg (Parser.accept .comma >>= ·) (funext fun more => ?_)
      cases more <;> rfl

end Grammar

/-- If three tokens are taken, the two sides agree on whether the phase of an import stands here. -/
theorem Seam.phaseAt_moved {c c₁ c₂ c' : Cursor} (h₁ : TransGen Move c c₁)
    (h₂ : TransGen Move c₁ c₂) (h₃ : TransGen Move c₂ c') (hok : σ.Ok halts c') :
    Grammar.phaseAt (σ.moved c).next (σ.moved c).second = Grammar.phaseAt c.next c.second := by
  have hp := passed_of_moves (h₁.trans (h₂.trans h₃)) hok
  rw [hp.next]
  by_cases hw : ∃ id escaped, c.next.token = .word id escaped
  · obtain ⟨id, escaped, hw⟩ := hw
    have hx := TransGen.trans_right (moves_behind_word h₁ (by rw [hw]; rfl)) h₂
    have hs : (σ.moved c).second = σ.shiftLexeme c.second := by
      rw [Cursor.second_of_word (show (σ.moved c).next.token = _ by rw [hp.next]; exact hw),
        Cursor.second_of_word hw, hp.next]
      exact (passed_of_moves (hx.trans h₃) hok).next
    have hx₂ : (Cursor.front .inside c.next.rest).next = c.second := (Cursor.second_of_word hw).symm
    rw [hs]
    by_cases hw₂ : ∃ id escaped, c.second.token = .word id escaped
    · obtain ⟨id₂, escaped₂, hw₂⟩ := hw₂
      have hbehind := moves_behind_word hx (by rw [hx₂, hw₂]; rfl)
      rw [hx₂] at hbehind
      have hthird : lex .inside (σ.shiftLexeme c.second).rest =
          σ.shiftLexeme (lex .inside c.second.rest) :=
        (passed_of_moves (TransGen.trans_right hbehind h₃) hok).next
      unfold Grammar.phaseAt
      rw [hthird]
      rfl
    · generalize c.second = second at hw₂
      obtain ⟨token, newline, start, rest⟩ := second
      cases token with
      | word id escaped => exact absurd ⟨id, escaped, rfl⟩ hw₂
      | _ => rfl
  · have hn (l : Lexeme) (hl : l.token = c.next.token) (word : String) : l.isWord word = false :=
      Bool.eq_false_iff.mpr fun hword => hw (hl ▸ Lexeme.word_of_isWord hword)
    simp [Grammar.phaseAt, hn c.next rfl, hn (σ.shiftLexeme c.next) rfl]

namespace Agrees

open Grammar

variable {g g' : Grammar} (h : Agrees σ g g') (m : Mode) (inside : Bool)

include h

theorem tryRest (body : List Statement) (handled : Bool) (param : List Pattern)
    (handler : List Statement) : Follows σ halts (g.tryRest m body handled param handler)
      (g'.tryRest (m.widen inside) body handled param handler) := by
  refine .acceptWord ?_ (Follows.check.bind fun _ => .pure _)
  exact ((h.braces m inside).follows.map _).bind fun _ => Follows.check.bind fun _ => .pure _

theorem tryStatement : Opens σ halts (g.tryStatement m) (g'.tryStatement (m.widen inside)) := by
  refine Opens.expectWord.bind fun _ => (h.braces m inside).follows.bind fun body => ?_
  refine .acceptWord (Leads.follows ?_) (h.tryRest m inside body false [] [])
  refine (h.handlerParameter m inside).looks.bind fun param => ?_
  exact ((h.braces m inside).map _).leads.bind fun handler =>
    h.tryRest m inside body true param handler

theorem withStatement (hb : σ.Blocks halts) :
    Ends σ halts (g.withStatement m) (g'.withStatement (m.widen inside)) :=
  Opens.expectWord.leads.then_finish fun _ => (h.condition m inside).follows.then_finish fun object =>
    ((h.single m inside hb).then_pure (Statement.with object)).finishes

/-! ## Imports and exports -/

omit h in
theorem outerName : Opens σ halts outerName outerName := by
  refine .peek fun l _ => ?_
  obtain ⟨token, newline, start, rest⟩ := l
  cases token with
  | word id escaped => exact Opens.advance.bind fun _ => .pure _
  | string value => exact Opens.advance.bind fun _ => .pure _
  | _ => exact .failure _

omit h in
theorem importAttribute : Opens σ halts importAttribute importAttribute := by
  refine outerName.bind fun _ => Opens.expect.follows.bind fun _ => Opens.follows (.peek fun l _ => ?_)
  obtain ⟨token, newline, start, rest⟩ := l
  cases token with
  | string value => exact .advance
  | _ => exact .failure _

theorem source (hb : σ.Blocks halts) : Ends σ halts g.source g'.source := by
  have attributes : Ends σ halts (g.sourceRest true) (g'.sourceRest true) :=
    Opens.advance.leads.then_finish fun _ => Opens.expect.follows.then_finish fun _ =>
      (h.listUntil .closeBrace importAttribute.follows).follows.then_finish fun _ =>
        .endStatement hb
  have plain : Finishes σ halts (g.sourceRest false) (g'.sourceRest false) := .endStatement hb
  have rest := Finishes.look (fun l => l.isWord "with" || (l.isWord "assert" && !l.newline))
    (fun _ => rfl) (fun l hl => by simp [Lexeme.isWord, hl]) attributes plain
  refine .peek fun l => ?_
  obtain ⟨token, newline, start, behind⟩ := l
  cases token with
  | string value => exact Opens.advance.leads.then_finish fun _ => rest
  | _ => exact .of_none (fun _ => rfl) _

theorem fromSource (hb : σ.Blocks halts) : Ends σ halts g.fromSource g'.fromSource :=
  Opens.expectWord.leads.then_finish fun _ => (h.source hb).finishes

omit h in
theorem importItem : Follows σ never (importItem m) (importItem (m.widen inside)) := by
  refine .peek_never fun l => outerName.follows.bind fun _ => .acceptWord ?_ .check
  exact (Opens.identifier m inside).follows.bind fun _ => .pure _

theorem importGroup : Opens σ halts (g.importGroup m) (g'.importGroup (m.widen inside)) := by
  refine .accept (Opens.expectWord.follows.bind fun _ =>
    (Opens.identifier m inside).follows.bind fun _ => .pure _) ?_
  exact Opens.expect.bind fun _ => (h.listUntil .closeBrace (importItem m inside)).follows.bind
    fun _ => .pure _

theorem importNames : Opens σ halts (g.importNames m) (g'.importNames (m.widen inside)) := by
  refine .sees fun _ => .sees fun _ => .ite (h.importGroup m inside) ?_
  refine (Opens.identifier m inside).bind fun _ => .accept (Stop.ne (by decide) _)
    (h.importGroup m inside).follows (.pure _)

theorem importFrom (hb : σ.Blocks halts) :
    Ends σ halts (g.importFrom m) (g'.importFrom (m.widen inside)) :=
  (h.importNames m inside).leads.then_finish fun _ =>
    ((h.fromSource hb).then_pure fun _ => Statement.imports).finishes

/-- Behind the phase at least three tokens stand, so that the two sides agree on it. -/
theorem importRest (hb : σ.Blocks halts) :
    Ends σ halts (g.importRest m) (g'.importRest (m.widen inside)) := by
  have names : Opens σ never _ _ := h.importNames m inside
  have behind := h.importFrom m inside hb
  have three {c c' s} (hs : g.importFrom m c = some (s, c')) :
      ∃ c₁ c₂, TransGen Move c c₁ ∧ TransGen Move c₁ c₂ ∧ TransGen Move c₂ c' := by
    obtain ⟨_, c₁, hn, hs⟩ := Parser.bind_eq_some.mp hs
    obtain ⟨_, c₂, hf, hs⟩ := Parser.bind_eq_some.mp hs
    obtain ⟨-, rfl⟩ := Parser.pure_eq_some.mp hs
    obtain ⟨_, c₃, hw, hs⟩ := Parser.bind_eq_some.mp hf
    have word : Opens σ halts (Parser.expectWord "from") (Parser.expectWord "from") := .expectWord
    exact ⟨c₁, c₃, names.moves hn, word.moves hw, (h.source hb).moves hs⟩
  have taken : Ends σ halts (Parser.advance >>= fun _ => g.importFrom m)
      (Parser.advance >>= fun _ => g'.importFrom (m.widen inside)) :=
    Opens.advance.leads.then_finish fun _ => behind.finishes
  have run (g : Grammar) (m : Mode) (c : Cursor) : (importPhase >>= fun _ => g.importFrom m) c =
      (if phaseAt c.next c.second then Parser.advance >>= fun _ => g.importFrom m
        else g.importFrom m) c := by
    show (importPhase c).bind _ = _
    rw [importPhase_eq]
    split <;> rfl
  have phased : Ends σ halts (importPhase >>= fun _ => g.importFrom m)
      (importPhase >>= fun _ => g'.importFrom (m.widen inside)) := by
    refine ⟨fun {c s c'} hs => ?_, fun {c s c'} hs hok => ?_⟩
    · rw [run] at hs
      split at hs
      · exact taken.moves hs
      · exact behind.moves hs
    · rw [run] at hs ⊢
      split at hs
      next hphase =>
        obtain ⟨_, c₀, ha, hs'⟩ := Parser.bind_eq_some.mp hs
        obtain ⟨hr, rfl⟩ := Parser.advance_eq_some.mp ha
        obtain ⟨c₁, c₂, h₁, h₂, h₃⟩ := three hs'
        rw [Seam.phaseAt_moved (.head (.next hr) h₁) h₂ h₃ hok, if_pos hphase]
        exact taken.keeps hs hok
      next hphase =>
        obtain ⟨c₁, c₂, h₁, h₂, h₃⟩ := three hs
        rw [Seam.phaseAt_moved h₁ h₂ h₃ hok, if_neg hphase]
        exact behind.keeps hs hok
  rw [importRest_eq, importRest_eq]
  refine .peek fun l => ?_
  obtain ⟨token, newline, start, rest⟩ := l
  cases token with
  | string value => exact (h.source hb).then_pure fun _ => Statement.imports
  | _ => exact phased

/-- The statement that an `import` begins; behind it something is taken, so the seam is not there. -/
theorem importStatement (hb : σ.Blocks halts) :
    Ends σ halts (onToken (· == .word "import" false) (g.importStatement m))
      (onToken (· == .word "import" false) (g'.importStatement (m.widen inside))) := by
  have word : Opens σ halts (Parser.expectWord "import") (Parser.expectWord "import") := .expectWord
  have rest := word.leads.then_finish fun _ => (h.importRest m inside hb).finishes
  refine .peekSecond_word (fun second => ?_) fun {c s second} hw hat hh hp hs hsecond => ?_
  · exact .ite (h.expressionStatement m inside hb) rest
  · have hold : c.second.token = .punctuator .closeBrace ∨
        c.second.token = .punctuator .semicolon ∧ σ.stop = .closer .semicolon := by
      rw [Cursor.second_of_word hw]
      exact (hb _ hh).1
    have hcall : (c.second.is .openParen || c.second.is .dot) = false := by
      rcases hold with hold | ⟨hold, -⟩ <;> simp [Lexeme.is, hold]
    rw [hcall, if_neg (by decide)] at hs
    obtain ⟨_, c₁, he, hs⟩ := Parser.bind_eq_some.mp hs
    obtain ⟨-, rfl⟩ := Parser.expectWord_eq_some.mp he
    exact (hat.not_moves ((h.importRest m inside hb).moves hs) (.inr ⟨hat, hh⟩)).elim

omit h in
theorem exportItem : Opens σ halts exportItem exportItem :=
  outerName.bind fun _ => .acceptWord (outerName.follows.bind fun _ => .pure _) (.pure _)

theorem exportDefault (hb : σ.Blocks halts) :
    Ends σ halts (g.exportDefault m) (g'.exportDefault (m.widen inside)) := by
  refine .peek fun next => .seesFunction (fun _ => .ite ?_ (.ite ?_ ?_)) fun {c s c'} hs hn => ?_
  · exact ((h.function m inside true).bind fun _ => .pure _).leads.ends
  · exact ((h.classOf m inside false).bind fun _ => .pure _).leads.ends
  · exact (h.assignment m.withIn inside).leads.then_finish fun value =>
      (Finishes.endStatement hb).then_pure fun _ => Statement.expression value
  · rw [if_pos rfl] at hs
    obtain ⟨f, c₁, hf, hs⟩ := Parser.bind_eq_some.mp hs
    obtain ⟨-, rfl⟩ := Parser.pure_eq_some.mp hs
    exact h.function_moves m hf hn

theorem exportStatement (hb : σ.Blocks halts) :
    Ends σ halts (g.exportStatement m) (g'.exportStatement (m.widen inside)) := by
  have source := ((h.fromSource hb).then_pure fun _ => Statement.exports [] []).finishes
  refine Opens.expectWord.leads.then_finish fun _ =>
    (Follows.acceptWord_self "default").then_finish fun _ => .ite ?_ ?_
  · exact ((h.exportDefault m inside hb).then_pure fun s => Statement.exports [s] []).finishes
  refine (Follows.accept_self (Stop.ne (by decide) _)).then_finish fun _ => .ite ?_ ?_
  · exact (Follows.acceptWord_self "as").then_finish fun _ =>
      .ite (outerName.follows.then_finish fun _ => source) source
  refine (Follows.accept_self (Stop.ne (by decide) _)).then_finish fun _ => .ite ?_ ?_
  · refine (h.listUntil .closeBrace exportItem.follows).follows.then_finish fun (names, _) => ?_
    have sourced : Ends σ halts (g.exportRest names true) (g'.exportRest names true) :=
      (h.fromSource hb).then_pure fun _ => Statement.exports [] []
    have plain : Finishes σ halts (g.exportRest names false) (g'.exportRest names false) :=
      (Finishes.endStatement hb).then_pure fun _ => Statement.exports [] names.flatten
    exact Finishes.look (fun l => l.isWord "from") (fun _ => rfl)
      (fun l hl => by simp [Lexeme.isWord, hl]) sourced plain
  · exact ((h.statement hb m inside true).then_still
      (fun s => .check (isDeclaration s) (Statement.exports [s] []))
      (fun s => .check (isDeclaration s) (Statement.exports [s] []))).finishes

/-! ## Statements -/

/-- A statement that begins with no keyword of its own. -/
theorem otherStatement (hb : σ.Blocks halts) (inList : Bool) : Ends σ halts
    (seesFunction >>= fun isFunction => if isFunction then g.functionStatement m inList
      else usingKind? .statement >>= fun kind => match kind with
        | some kind => Parser.check inList >>= fun _ => declarationWords kind >>= fun _ =>
          g.declaration m kind
        | none => g.expressionStatement m)
    (seesFunction >>= fun isFunction => if isFunction then g'.functionStatement (m.widen inside) inList
      else usingKind? .statement >>= fun kind => match kind with
        | some kind => Parser.check inList >>= fun _ => declarationWords kind >>= fun _ =>
          g'.declaration (m.widen inside) kind
        | none => g'.expressionStatement (m.widen inside)) := by
  refine .seesFunction (fun _ => .ite (h.functionStatement m inside inList).leads.ends ?_)
    fun {c s c'} hs hn => ?_
  · refine .kind (usingKind?_eq .statement) (σ.tells_using .statement) (fun kind => ?_)
      fun {kind c c' s} hs => ?_
    · cases kind with
      | none => exact h.expressionStatement m inside hb
      | some kind =>
        refine .check (Leads.then_finish ?_ fun _ => (h.declaration m inside hb kind).finishes)
        exact declarationWords_leads kind
    · obtain ⟨_, c₁, hc, hs⟩ := Parser.bind_eq_some.mp hs
      obtain ⟨-, rfl⟩ := Parser.check_eq_some.mp hc
      exact declarationWords_moves (fun hd => (h.declaration m inside hb kind).moves hd) hs
  · rw [if_pos rfl] at hs
    obtain ⟨f, c₁, hf, hs⟩ := Parser.bind_eq_some.mp hs
    simp only [Parser.bind_eq_some, Parser.check_eq_some, Parser.pure_eq_some] at hs
    obtain ⟨-, c₂, ⟨-, rfl⟩, -, c₃, ⟨-, rfl⟩, -, rfl⟩ := hs
    exact h.function_moves m hf hn

theorem wordStatement (hb : σ.Blocks halts) (inList : Bool) (word : String) :
    Ends σ halts (onToken (· == .word word false) (g.wordStatement m inList word))
      (onToken (· == .word word false) (g'.wordStatement (m.widen inside) inList word)) := by
  unfold Grammar.wordStatement
  split
  · exact (h.ifStatement m inside hb).onToken
  · exact (h.doStatement m inside hb).onToken
  · exact (h.whileStatement m inside hb).onToken
  · exact (h.forStatement m inside hb).onToken
  · exact (Opens.advance.leads.then_finish fun _ =>
      (jumpLabel m inside hb).then_pure Statement.continue).onToken
  · exact (Opens.advance.leads.then_finish fun _ =>
      (jumpLabel m inside hb).then_pure Statement.break).onToken
  · exact (h.withStatement m inside hb).onToken
  · exact (h.switchStatement m inside).leads.ends.onToken
  · exact (h.throwStatement m inside hb).onToken
  · exact (h.tryStatement m inside).leads.ends.onToken
  · exact (Opens.advance.leads.then_finish fun _ =>
      (Finishes.endStatement hb).then_pure fun _ => Statement.debugger).onToken
  · exact (h.classStatement m inside inList).leads.ends.onToken
  · exact (h.exportStatement m inside hb).onToken
  · exact h.importStatement m inside hb
  · exact (h.returnStatement m inside hb).onToken
  · exact h.letStatement m inside hb inList
  · exact (Opens.advance.leads.then_finish fun _ =>
      (h.declaration m inside hb .var).finishes).onToken
  · exact (Ends.check (Opens.advance.leads.then_finish fun _ =>
      (h.declaration m inside hb .const).finishes)).onToken
  · exact (h.otherStatement m inside hb inList).onToken

theorem anyStatement (hb : σ.Blocks halts) (inList : Bool) :
    Ends σ halts (g.anyStatement m inList) (g'.anyStatement (m.widen inside) inList) := by
  have expression := h.expressionStatement m inside hb
  refine .peek_known fun l => ?_
  obtain ⟨token, newline, start, rest⟩ := l
  cases token with
  | word word escaped =>
    cases escaped with
    | false => exact h.wordStatement m inside hb inList word
    | true => exact expression.onToken
  | punctuator p =>
    cases p with
    | openBrace => exact ((h.braces m inside).bind fun _ => .pure _).leads.ends.onToken
    | semicolon => exact (Opens.advance.leads.bind fun _ => .pure _).ends.onToken
    | «at» => exact (h.classStatement m inside inList).leads.ends.onToken
    | _ => exact expression.onToken
  | _ => exact expression.onToken

end Agrees

end Collector.Script
