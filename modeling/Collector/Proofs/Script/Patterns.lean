import Collector.Script.Grammar.Pattern
import Collector.Proofs.Script.Following

/-!
# Lists, names of properties and patterns across a seam

`Agrees` says that the productions that two grammars hold follow each other across a seam. From it
the productions for lists, names of properties and patterns do.
-/

namespace Collector.Script

open Relation

variable {α : Type} {σ : Seam} {halts : Cursor → Prop}

/-! ## Statements at a seam -/

/-- Where a statement stops: at the same place on both sides, or on the new side behind the
semicolon that ends it there in the place of a brace. -/
def Seam.Done (σ : Seam) (halts : Cursor → Prop) (c d : Cursor) : Prop :=
  d = σ.moved c ∨
    (σ.stop = .closer .semicolon ∧ c.next.token = .punctuator .closeBrace) ∧ σ.AtSeam c ∧ halts c ∧
      d = .front .inside σ.new.tail

/-- `q` reads on the new side what `p` reads on the old one, and perhaps the semicolon behind. -/
structure Ends (σ : Seam) (halts : Cursor → Prop) (p q : Parser α) : Prop where
  moves {c a c'} (h : p c = some (a, c')) : TransGen Move c c'
  keeps {c a c'} (h : p c = some (a, c')) (hok : σ.Ok halts c') :
    ∃ d, q (σ.moved c) = some (a, d) ∧ σ.Done halts c' d

/-- Where a block ends on the old side, it ends or a semicolon stands on the new one, with no `else`
behind; where a semicolon stands on the old side, it does on the new one. -/
def Seam.Blocks (σ : Seam) (halts : Cursor → Prop) : Prop :=
  ∀ c, halts c → (c.next.token = .punctuator .closeBrace ∨
      c.next.token = .punctuator .semicolon ∧ σ.stop = .closer .semicolon) ∧
    (σ.stop = .closer .brace ∨ σ.stop = .closer .semicolon) ∧
    (σ.stop = .closer .semicolon → (lex .inside σ.new.tail).isWord "else" = false)

theorem Seam.Blocks.never : σ.Blocks never := fun _ h => h.elim

/-! ## Grammars that follow each other -/

/-- The productions of the second grammar read on the new side what those of the first one read on
the old side. A callee may not stop before a parenthesis, and statements stop where a block ends. -/
structure Agrees (σ : Seam) (g g' : Grammar) : Prop where
  fuel : g.fuel ≤ g'.fuel
  assignment {stops} (m inside) : Opens σ stops (g.assignment m) (g'.assignment (m.widen inside))
  operand {stops} (m inside level) :
    Opens σ stops (g.operand m level) (g'.operand (m.widen inside) level)
  unary {stops} (m inside) : Opens σ stops (g.unary m) (g'.unary (m.widen inside))
  leftHand {stops} (m inside) : Opens σ stops (g.leftHand m) (g'.leftHand (m.widen inside))
  callee {stops} (hh : ∀ c, stops c → c.next.token ≠ .punctuator .openParen) (m inside) :
    Opens σ stops (g.callee m) (g'.callee (m.widen inside))
  binding {stops} (m inside) : Opens σ stops (g.binding m) (g'.binding (m.widen inside))
  statement {stops} (hh : σ.Blocks stops) (m inside inList) :
    Ends σ stops (g.statement m inList) (g'.statement (m.widen inside) inList)

/-- A punctuator that closes nothing is not what stands at a seam. -/
theorem Stop.ne {p : Punctuator} (h : p ≠ .closeParen ∧ p ≠ .closeBrace ∧ p ≠ .semicolon)
    (stop : Stop) : .punctuator p ≠ stop.token := by
  rcases stop with (_ | _ | _) | _
  · simpa [token, Closer.punctuator] using h.1
  · simpa [token, Closer.punctuator] using h.2.1
  · simpa [token, Closer.punctuator] using h.2.2
  · simp [token]

theorem Stop.is_eq_false {p : Punctuator} {stop : Stop} {l : Lexeme} (h : l.token = stop.token)
    (hp : p ≠ .closeParen ∧ p ≠ .closeBrace ∧ p ≠ .semicolon) : l.is p = false := by
  simpa [Lexeme.is, h] using (Stop.ne hp stop).symm

namespace Agrees

open Grammar

variable {g g' : Grammar} (h : Agrees σ g g') (m : Mode) (inside : Bool)

include h

/-! ## Lists -/

theorem commaList (first : Expr) :
    Follows σ halts (g.commaList m first) (g'.commaList (m.widen inside) first) :=
  .iterate h.fuel (fun _ => .accept (Stop.ne (by decide) _)
    ((h.assignment m inside).follows.bind fun _ => .pure _) (.pure _)) [first]

theorem expression : Opens σ halts (g.expression m) (g'.expression (m.widen inside)) :=
  (h.assignment m inside).bind fun first => h.commaList m inside first

theorem listUntil (stop : Punctuator) {item item' : Parser α} (hi : Follows σ never item item') :
    Leads σ halts (g.listUntil stop item) (g'.listUntil stop item') := by
  refine .iterate h.fuel (fun (items, comma) => ?_) ([], false)
  refine .accept (.pure _) ?_
  refine hi.looks.bind fun value => ?_
  refine .accept (.pure _) ?_
  exact Opens.expect.leads.bind fun _ => .pure _

/-! ## Names of properties and patterns -/

theorem key : Opens σ halts (g.key m) (g'.key (m.widen inside)) := by
  refine .peek fun l _ => ?_
  obtain ⟨token, newline, start, rest⟩ := l
  have take (k : Key) : Opens σ halts (Parser.advance >>= fun _ => pure k)
      (Parser.advance >>= fun _ => pure k) := Opens.advance.bind fun _ => .pure k
  cases token with
  | word id escaped => exact take _
  | string value => exact take _
  | number value => exact take _
  | bigint digits => exact take _
  | privateName id => exact take _
  | finish => exact .failure _
  | invalid => exact .failure _
  | punctuator p =>
    cases p with
    | openBracket =>
      exact Opens.advance.bind fun _ => ((h.assignment m.withIn inside).follows.bind fun value =>
        Opens.expect.follows.bind fun _ => .pure _)
    | _ => exact .failure _

theorem withDefault (pattern : Pattern) :
    Follows σ halts (g.withDefault m pattern) (g'.withDefault (m.widen inside) pattern) :=
  .accept (Stop.ne (by decide) _)
    ((h.assignment m.withIn inside).follows.bind fun _ => .pure _) (.pure _)

theorem bindingItem : Opens σ halts (g.bindingItem m) (g'.bindingItem (m.widen inside)) :=
  (h.binding m inside).bind fun pattern => h.withDefault m inside pattern

theorem bindingRest : Opens σ halts (g.bindingRest m) (g'.bindingRest (m.widen inside)) :=
  Opens.expect.bind fun _ => (h.binding m inside).follows.bind fun _ => .pure _

/-- The rest of a list, which has to stand before its closing bracket. -/
theorem bindingRest_before (p : Punctuator) :
    Follows σ never
      (g.bindingRest m >>= fun pattern => Parser.sees p >>= fun closes =>
        Parser.check closes >>= fun _ => pure pattern)
      (g'.bindingRest (m.widen inside) >>= fun pattern => Parser.sees p >>= fun closes =>
        Parser.check closes >>= fun _ => pure pattern) :=
  (h.bindingRest m inside).follows.bind fun pattern =>
    .sees_never fun _ => Follows.check.bind fun _ => .pure pattern

theorem arrayBinding : Follows σ never (g.arrayBinding m) (g'.arrayBinding (m.widen inside)) :=
  .sees_never fun _ => .ite (.pure _) <| .sees_never fun _ =>
    .ite (h.bindingRest_before m inside .closeBracket) (h.bindingItem m inside).follows

theorem objectBinding : Follows σ never (g.objectBinding m) (g'.objectBinding (m.widen inside)) := by
  refine .accept (Stop.ne (by decide) _) ?_ ?_
  · exact (Opens.identifier m inside).follows.bind fun id =>
      .sees_never fun _ => Follows.check.bind fun _ => .pure _
  · refine .peek_never fun next => (h.key m inside).follows.bind fun key => ?_
    refine .accept (Stop.ne (by decide) _) ?_ ?_
    · exact (h.bindingItem m inside).follows.bind fun value => .pure _
    · refine (Follows.lift (next.identifier? m)).bind fun id => ?_
      exact (h.withDefault m inside (.bind id)).bind fun value => .pure _

theorem bindingTarget : Opens σ halts (g.bindingTarget m) (g'.bindingTarget (m.widen inside)) := by
  refine .accept ?_ (.accept ?_ ?_)
  · exact (h.listUntil .closeBracket (h.arrayBinding m inside)).follows.bind fun _ => .pure _
  · exact (h.listUntil .closeBrace (h.objectBinding m inside)).follows.bind fun _ => .pure _
  · exact (Opens.identifier m inside).bind fun id => .pure _

end Agrees

end Collector.Script
