import Collector.Script.Grammar.Class
import Collector.Proofs.Script.Functions

/-!
# Classes across a seam

A class ends with its brace, so its production follows wherever it stops. Inside of it a seam never
stands where something stops.
-/

namespace Collector.Script

open Relation

variable {α β : Type} {σ : Seam} {halts : Cursor → Prop}

/-- The end of a statement where the seam is not reached. -/
theorem Follows.endStatement : Follows σ never Parser.endStatement Parser.endStatement :=
  .peek_never fun _ => .ite Opens.advance.follows .check

/-- A class behind its name. -/
def Grammar.classRest (g : Grammar) (m : Mode) (decorators : List Expr) (name : Option String) :
    Parser Class := do
  let heritage ← if ← Parser.acceptWord "extends" then
      List.singleton <$> g.leftHand m
    else pure []
  let members ← g.members m
  return ⟨decorators, name, heritage, members⟩

namespace Agrees

open Grammar

variable {g g' : Grammar} (h : Agrees σ g g') (m : Mode) (inside : Bool)

include h

/-! ## Decorators and blocks -/

theorem decoratorsStep (items : List Expr) : Follows σ halts
    (Parser.accept .at >>= fun more => if more then
      g.leftHand m >>= fun e => pure (Sum.inl (e :: items)) else pure (.inr items.reverse))
    (Parser.accept .at >>= fun more => if more then
      g'.leftHand (m.widen inside) >>= fun e => pure (Sum.inl (e :: items))
      else pure (.inr items.reverse)) :=
  .accept (Stop.ne (by decide) _) ((h.leftHand m inside).follows.bind fun _ => .pure _) (.pure _)

theorem decorators : Follows σ halts (g.decorators m) (g'.decorators (m.widen inside)) :=
  .iterate h.fuel (h.decoratorsStep m inside) []

/-- Decorators in front of what they belong to. -/
theorem decorators_then {k k' : List Expr → Parser β}
    (hk : ∀ items, Opens σ halts (k items) (k' items)) :
    Opens σ halts (g.decorators m >>= k) (g'.decorators (m.widen inside) >>= k') := by
  refine .iterate_then h.fuel (h.decoratorsStep m inside) [] (fun j j' hj hend => ?_) hk
  rw [bind_assoc, bind_assoc]
  refine .accept ?_ (hend _)
  rw [if_pos rfl, if_pos rfl, bind_assoc, bind_assoc]
  exact (h.leftHand m inside).follows.bind fun e => hj (.inl [e])

theorem braces : Opens σ halts (g.braces m) (g'.braces (m.widen inside)) := by
  refine Opens.expect.bind fun _ => Leads.follows (.iterate_rounds h.fuel (fun items k k' hk => ?_) [])
  rw [bind_assoc, bind_assoc]
  refine .accept (.pure _) ?_
  rw [if_neg (by decide), if_neg (by decide), bind_assoc, bind_assoc]
  have hs : Leads σ never _ _ := (h.statement .never m inside true).leads .never
  exact hs.follows.looks.bind fun s => hk (s :: items)

/-! ## Members -/

theorem fieldRest : Follows σ never g.fieldRest g'.fieldRest := by
  refine .accept (Stop.ne (by decide) _) ?_ ?_
  · exact ((h.assignment fieldMode false).follows.map _).bind fun value =>
      Follows.endStatement.bind fun _ => .pure value
  · exact Follows.endStatement.bind fun _ => .pure _

theorem memberRest (decorators : List Expr) (isStatic : Bool) :
    Leads σ never (g.memberRest m decorators isStatic)
      (g'.memberRest (m.widen inside) decorators isStatic) := by
  refine (Looks.acceptModifier "accessor").bind fun _ => .ite ?_ ?_
  · refine .peek fun l => .check ((h.key m inside).leads.bind fun key => ?_)
    exact h.fieldRest.bind fun value => .pure _
  · refine Looks.modifiers.bind fun mods => .peek fun l => (h.key m inside).leads.bind fun key => ?_
    refine .sees_never fun _ => .ite (Follows.check.bind fun _ => ?_) (Follows.check.bind fun _ => ?_)
    · exact (h.method mods).follows.bind fun f => .pure _
    · exact h.fieldRest.bind fun value => .pure _

theorem member : Leads σ never (g.member m) (g'.member (m.widen inside)) := by
  have rest (decorators : List Expr) (isStatic : Bool) := h.memberRest m inside decorators isStatic
  refine (h.decorators m inside).looks.bind fun decorators => ?_
  refine .peekSecond (fun next second => ?_) (fun next second second' hn => ?_)
  · refine .ite ?_ (.ite ?_ (rest decorators false))
    · refine Opens.advance.leads.bind fun _ => ?_
      exact (h.braces blockMode false).follows.bind fun statements => .pure _
    · exact Opens.advance.leads.bind fun _ => (rest decorators true).follows
  · have hstatic : next.isWord "static" = false := by
      refine Bool.eq_false_iff.mpr fun hw => ?_
      obtain ⟨id, escaped, hw⟩ := Lexeme.word_of_isWord hw
      exact hn id escaped hw
    have hstatic' : (σ.shiftLexeme next).isWord "static" = false := hstatic
    simp only [hstatic, hstatic', Bool.false_and]
    exact rest decorators false

theorem members : Opens σ halts (g.members m) (g'.members (m.widen inside)) := by
  refine Opens.expect.bind fun _ =>
    Leads.follows (.iterate_rounds h.fuel (fun items k k' hk => ?_) [])
  rw [bind_assoc, bind_assoc]
  refine .accept (.pure _) ?_
  rw [if_neg (by decide), if_neg (by decide), bind_assoc, bind_assoc]
  refine .accept (hk items).follows ?_
  rw [if_neg (by decide), if_neg (by decide), bind_assoc, bind_assoc]
  exact (h.member m inside).follows.looks.bind fun x => hk (x :: items)

/-! ## Classes -/

theorem classRest (decorators : List Expr) (name : Option String) :
    Leads σ halts (g.classRest m decorators name)
      (g'.classRest (m.widen inside) decorators name) := by
  have rest (heritage : List Expr) : Leads σ halts
      (g.members m >>= fun members => pure (Class.mk decorators name heritage members))
      (g'.members (m.widen inside) >>= fun members => pure ⟨decorators, name, heritage, members⟩) :=
    (h.members m inside).leads.bind fun _ => .pure _
  refine .acceptWord ?_ (rest [])
  exact (((h.leftHand m inside).follows.map List.singleton).looks.bind rest).follows

theorem classOf (named : Bool) :
    Opens σ halts (g.classOf m named) (g'.classOf (m.widen inside) named) := by
  refine h.decorators_then m inside fun decorators => Opens.expectWord.bind fun _ => ?_
  refine Leads.follows (.peek fun l => .ite (.check ?_) ?_)
  · exact h.classRest m inside decorators none
  · exact ((Opens.identifier m inside).follows.map some).looks.bind
      (h.classRest m inside decorators)

end Agrees

end Collector.Script
