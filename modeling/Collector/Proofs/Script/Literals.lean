import Collector.Script.Grammar.Expression
import Collector.Proofs.Script.Ahead
import Collector.Proofs.Script.Patterns

/-!
# Templates and regular expressions across a seam

The text of a template stands between tokens, and a regular expression begins with a token that is
an operator elsewhere. Each is read behind a token that opens it.
-/

namespace Collector.Script

open Relation

variable {α β : Type} {σ : Seam} {halts : Cursor → Prop}

/-! ## Scanners across a seam -/

/-- A scanner reads the same on both sides where it stops before the seam. -/
theorem Scans.shift {scan : Scanner α} (h : Scans scan) {text rest : List Char} {value : α}
    (hs : scan text = some (value, rest)) (hr : σ.old <:+ rest) :
    scan (σ.shift text) = some (value, σ.shift rest) := by
  obtain ⟨taken, rfl, same⟩ := h _ _ _ hs
  obtain ⟨front, rfl⟩ := hr
  rw [Seam.shift_append, ← List.append_assoc, Seam.shift_append, List.append_assoc]
  rcases σ.fits with hsame | hn
  · rw [← hsame]
    exact hs
  · exact same _ ((Shut.closed _ hn.isClosed).append front)

theorem Scans.suffix {scan : Scanner α} (h : Scans scan) {text rest : List Char} {value : α}
    (hs : scan text = some (value, rest)) : rest <:+ text := by
  obtain ⟨taken, rfl, -⟩ := h _ _ _ hs
  exact List.suffix_append _ _

/-! ## Templates -/

namespace Grammar

/-- A piece of the text of a template behind the token that opens it. -/
def piece (p : Punctuator) : Parser (Quasi × Bool) := do
  let next ← Parser.peek
  Parser.check (next.is p)
  let (text, rest) ← Parser.lift (quasi next.rest)
  Parser.jump rest
  return text

/-- A template behind its first piece. -/
def templateRest (g : Grammar) (m : Mode) (first : Quasi × Bool) :
    Parser (List Quasi × List Expr) :=
  if first.2 then return ([first.1], [])
  else
    Parser.iterate g.fuel (fun (texts, values) => do
      let value ← g.expression m.withIn
      let (text, last) ← piece .closeBrace
      let texts := text :: texts
      let values := value :: values
      if last then return .inr (texts.reverse, values.reverse)
      else return .inl (texts, values)) ([first.1], [])

theorem piece_eq_some {p : Punctuator} {c c' : Cursor} {text : Quasi × Bool} :
    piece p c = some (text, c') ↔ c.next.token = .punctuator p ∧
      ∃ rest, quasi c.next.rest = some (text, rest) ∧ c' = .front .inside rest := by
  unfold piece
  simp only [Parser.peek_bind, Parser.bind_eq_some, Parser.check_eq_some, Parser.lift_eq_some,
    Parser.jump_eq_some, Parser.pure_eq_some, Lexeme.is, beq_iff_eq]
  constructor
  · rintro ⟨-, c₁, ⟨hp, rfl⟩, ⟨text', rest⟩, c₂, ⟨hq, rfl⟩, -, c₃, rfl, rfl, rfl⟩
    exact ⟨hp, rest, hq, rfl⟩
  · rintro ⟨hp, rest, hq, rfl⟩
    exact ⟨(), c, ⟨hp, rfl⟩, (text, rest), c, ⟨hq, rfl⟩, (), _, rfl, rfl, rfl⟩

end Grammar

open Grammar

theorem Opens.piece {p : Punctuator} (hp : (Token.punctuator p).opensText = true) :
    Opens σ halts (piece p) (piece p) := by
  refine ⟨fun {c text c'} h => ?_, fun {c d text c'} hm h hok => ?_⟩
  · obtain ⟨ht, rest, hq, rfl⟩ := piece_eq_some.mp h
    refine .single ⟨by rw [ht]; rfl, rfl, .inr ⟨by rw [ht]; exact hp, ?_⟩⟩
    exact quasi_tight _ _ _ hq
  · obtain ⟨ht, rest, hq, rfl⟩ := piece_eq_some.mp h
    obtain ⟨newline, hd⟩ := hm
    refine piece_eq_some.mpr ⟨by rw [hd]; exact ht, _, ?_, rfl⟩
    rw [hd]
    exact quasi_scans.shift hq hok.left

/-- A template is read piece by piece. -/
theorem Grammar.template_eq (g : Grammar) (m : Mode) {c : Cursor}
    (h : c.next.token = .punctuator .backtick) :
    (Parser.advance >>= fun _ => g.template m) c = (piece .backtick >>= g.templateRest m) c := by
  have hc : c.next.is .backtick = true := by simp [Lexeme.is, h]
  have run : (piece .backtick >>= g.templateRest m) c =
      (Parser.check (c.next.is .backtick) >>= fun _ => Parser.lift (quasi c.next.rest) >>= fun r =>
        Parser.jump r.2 >>= fun _ => g.templateRest m r.1) c := by
    unfold piece
    simp only [bind_assoc, pure_bind]
    rfl
  rw [run, hc, Parser.bind_of_eq_some (Parser.advance_of_real (by rw [h]; rfl))]
  unfold template templateRest piece
  simp only [bind_assoc, pure_bind]
  rw [Parser.left_bind, show (Cursor.front .inside c.next.rest).left = c.next.rest from rfl]
  -- The cursor does not matter to a jump.
  cases quasi c.next.rest <;> rfl

namespace Agrees

variable {g g' : Grammar} (h : Agrees σ g g') (m : Mode) (inside : Bool)

include h

theorem templateRest (first : Quasi × Bool) :
    Follows σ halts (g.templateRest m first) (g'.templateRest (m.widen inside) first) := by
  refine .ite (.pure _) (.iterate h.fuel (fun (texts, values) => ?_) _)
  refine (h.expression m.withIn inside).follows.bind fun value => ?_
  exact (Opens.piece rfl).follows.bind fun (text, last) => .ite (.pure _) (.pure _)

theorem template_then {k k' : List Quasi × List Expr → Parser β}
    (hk : ∀ r, Follows σ halts (k r) (k' r)) : Opens σ halts
      (onToken (· == .punctuator .backtick) (Parser.advance >>= fun _ => g.template m >>= k))
      (onToken (· == .punctuator .backtick)
        (Parser.advance >>= fun _ => g'.template (m.widen inside) >>= k')) := by
  have run (g : Grammar) (m : Mode) (k : List Quasi × List Expr → Parser β) (c : Cursor)
      (hc : (c.next.token == .punctuator .backtick) = true) :
      (Parser.advance >>= fun _ => g.template m >>= k) c =
        (piece .backtick >>= fun first => g.templateRest m first >>= k) c := by
    have := congrArg (Option.bind · fun r => k r.1 r.2) (g.template_eq m (beq_iff_eq.mp hc))
    simp only [← bind_assoc]
    exact this
  refine .onToken_congr ((Opens.piece rfl).bind fun first => ?_) (run g m k)
    (run g' (m.widen inside) k')
  exact (h.templateRest m inside first).bind hk

theorem plainTemplate : Opens σ halts
    (onToken (· == .punctuator .backtick) (g.plainTemplate m))
    (onToken (· == .punctuator .backtick) (g'.plainTemplate (m.widen inside))) := by
  let finish (r : List Quasi × List Expr) : Parser Expr :=
    Parser.check (r.1.all fun text => text.cooked.isSome) >>= fun _ =>
      pure (.template r.1 r.2)
  have run (g : Grammar) (m : Mode) (c : Cursor)
      (hc : (c.next.token == .punctuator .backtick) = true) :
      g.plainTemplate m c =
        onToken (· == .punctuator .backtick) (Parser.advance >>= fun _ => g.template m >>= finish)
          c := by
    have ht := beq_iff_eq.mp hc
    rw [onToken_of_true hc, Parser.bind_of_eq_some (Parser.advance_of_real (by rw [ht]; rfl))]
    exact Parser.bind_of_eq_some (Parser.expect_of_token ht)
  exact .onToken_congr (h.template_then m inside fun r => Follows.check.bind fun _ => .pure _)
    (run g m) (run g' (m.widen inside))

end Agrees

/-! ## Regular expressions -/

/-- A punctuator is read by its spelling. -/
theorem tokenAt_punctuator {text rest : List Char} {p : Punctuator}
    (h : tokenAt text = (.punctuator p, rest)) :
    ∃ spelling, (spelling, p) ∈ spellings ∧ text = spelling ++ rest := by
  cases text with
  | nil => cases h
  | cons c text =>
    rw [tokenAt_cons] at h
    cases hs : tokenScan (c :: text) with
    | none =>
      rw [hs] at h
      cases h
    | some found =>
      obtain rfl : found = (.punctuator p, rest) := by simpa [hs] using h
      rw [tokenScan_cons] at hs
      split at hs
      · obtain ⟨found, -, hs⟩ := Option.map_eq_some_iff.mp hs
        cases hs
      · split at hs
        · obtain ⟨found, -, hs⟩ := Option.map_eq_some_iff.mp hs
          cases hs
        · split at hs
          · cases number_numeric hs
          · split at hs
            · obtain ⟨found, -, hs⟩ := Option.map_eq_some_iff.mp hs
              cases hs
            · obtain ⟨⟨q, rest'⟩, hs, hq⟩ := Option.map_eq_some_iff.mp hs
              cases hq
              obtain ⟨taken, ht, hf⟩ := punctuator?_eq_some hs
              exact ⟨taken, List.mem_of_find?_eq_some hf, ht⟩

theorem Cursor.next_spelling {c : Cursor} {p : Punctuator} (h : c.next.token = .punctuator p) :
    ∃ spelling, (spelling, p) ∈ spellings ∧ c.next.start = spelling ++ c.next.rest := by
  rw [c.next_eq] at h ⊢
  unfold lex at h ⊢
  split
  next hb => simp [hb] at h
  next newline start hb =>
    rw [hb] at h
    exact tokenAt_punctuator (Prod.ext h rfl)

/-- How the tokens that open a regular expression are spelled. -/
theorem spellings_slash : ∀ entry ∈ spellings,
    (entry.2 = .slash → entry.1 = ['/']) ∧ (entry.2 = .slashAssign → entry.1 = ['/', '=']) := by
  decide +kernel

/-- A regular expression ends behind the token that opens it. -/
theorem regex_tight_rest {c : Cursor} {value : String × String} {rest : List Char}
    (ht : c.next.token = .punctuator .slash ∨ c.next.token = .punctuator .slashAssign)
    (h : regex (c.next.start.drop 1) = some (value, rest)) : Tight c.next.rest rest := by
  rcases ht with ht | ht
  · obtain ⟨spelling, hm, hs⟩ := Cursor.next_spelling ht
    obtain rfl := (spellings_slash _ hm).1 rfl
    rw [hs] at h
    exact regex_tight _ _ _ h
  · obtain ⟨spelling, hm, hs⟩ := Cursor.next_spelling ht
    obtain rfl := (spellings_slash _ hm).2 rfl
    rw [hs] at h
    obtain ⟨taken, htaken, same⟩ := regex_scans _ _ _ h
    obtain ⟨d, taken, rfl⟩ := List.exists_cons_of_ne_nil (Takes.ne_nil same (by rfl))
    exact (regex_tight _ _ _ h).of_suffix ⟨taken, (List.cons.inj htaken).2.symm⟩ ⟨['='], rfl⟩

theorem Grammar.regexLiteral_eq_some {c c' : Cursor} {e : Expr} :
    Grammar.regexLiteral c = some (e, c') ↔ ∃ body flags rest,
      regex (c.next.start.drop 1) = some ((body, flags), rest) ∧ e = .regex body flags ∧
        c' = .front .inside rest := by
  unfold Grammar.regexLiteral
  simp only [Parser.peek_bind, Parser.bind_eq_some, Parser.lift_eq_some, Parser.jump_eq_some,
    Parser.pure_eq_some]
  constructor
  · rintro ⟨⟨⟨body, flags⟩, rest⟩, c₁, ⟨hr, rfl⟩, -, c₂, rfl, rfl, rfl⟩
    exact ⟨body, flags, rest, hr, rfl, rfl⟩
  · rintro ⟨body, flags, rest, hr, rfl, rfl⟩
    exact ⟨((body, flags), rest), c, ⟨hr, rfl⟩, (), _, rfl, rfl, rfl⟩

theorem Seam.shift_cons (c : Char) {text : List Char} (h : σ.old <:+ text) :
    σ.shift (c :: text) = c :: σ.shift text := by
  obtain ⟨front, rfl⟩ := h
  exact σ.shift_append (c :: front) |>.trans (by rw [Seam.shift_append]; rfl)

theorem Opens.regexLiteral {token : Token}
    (ht : token = .punctuator .slash ∨ token = .punctuator .slashAssign) :
    Opens σ halts (Script.onToken (· == token) Grammar.regexLiteral)
      (Script.onToken (· == token) Grammar.regexLiteral) := by
  refine ⟨fun {c e c'} h => ?_, fun {c d e c'} hm h hok => ?_⟩
  · obtain ⟨hc, h⟩ := onToken_eq_some.mp h
    obtain ⟨body, flags, rest, hr, rfl, rfl⟩ := Grammar.regexLiteral_eq_some.mp h
    rw [beq_iff_eq] at hc
    have hs := regex_tight_rest (hc ▸ ht) hr
    refine .single ⟨?_, rfl, .inr ⟨?_, hs⟩⟩
    · rcases ht with rfl | rfl <;> rw [hc] <;> rfl
    · rcases ht with rfl | rfl <;> rw [hc] <;> rfl
  · obtain ⟨hc, h⟩ := onToken_eq_some.mp h
    obtain ⟨body, flags, rest, hr, rfl, rfl⟩ := Grammar.regexLiteral_eq_some.mp h
    obtain ⟨newline, hd⟩ := hm
    refine onToken_eq_some.mpr ⟨by rw [hd]; exact hc, Grammar.regexLiteral_eq_some.mpr
      ⟨body, flags, σ.shift rest, ?_, rfl, rfl⟩⟩
    have hsuffix : σ.old <:+ c.next.start.drop 1 := hok.left.trans (regex_scans.suffix hr)
    rw [hd]
    show regex ((σ.shift c.next.start).drop 1) = _
    rw [show (σ.shift c.next.start).drop 1 = σ.shift (c.next.start.drop 1) from ?_]
    · exact regex_scans.shift hr hok.left
    · cases hstart : c.next.start with
      | nil => rw [hstart] at hr; cases hr
      | cons d tail =>
        rw [hstart] at hsuffix
        exact congrArg (List.drop 1) (Seam.shift_cons d (show σ.old <:+ tail from hsuffix))

end Collector.Script
