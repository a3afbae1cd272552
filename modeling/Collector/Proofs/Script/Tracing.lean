import Collector.Proofs.Script.Ahead
import Collector.Proofs.Script.Literals
import Collector.Proofs.Script.Marks
import Collector.Proofs.Script.Reading
import Collector.Script.Reader

/-!
# Marks in their order

`Traces marks c c'` says that the marks stand in the text between two cursors, one behind another
and perhaps with other tokens between them. A parser `Adds` marks to those that have been read
before it, if whatever it answers leaves its marks where it was read.

The lemmas about `Parser.Adds` follow the combinators of `Collector.Script.Parser`: a parser that
looks or takes a token adds nothing, and a chain of parsers adds what each of them adds.
-/

namespace Collector.Script

variable {α β : Type} {c c' d : Cursor}

/-! ## Where a mark stands -/

/-- The cursor behind the next token. -/
abbrev Cursor.behind (c : Cursor) : Cursor := .front .inside c.next.rest

/-- Whether the next token is a word, written with or without escapes. -/
def Cursor.SeesName (c : Cursor) (id : String) : Prop := ∃ escaped, c.next.token = .word id escaped

/-- Whether the next token is a punctuator. -/
def Cursor.SeesMark (c : Cursor) (p : Punctuator) : Prop := c.next.token = .punctuator p

/-- Whether an expression is read behind a bracket, up to the one that closes it. -/
def Cursor.SeesInBrackets (c : Cursor) (value : Expr) : Prop :=
  ∃ fuel level m c', (grammar fuel level).expression m c = some (value, c') ∧
    c'.SeesMark .closeBracket

/-- What reading a mark does to a cursor. -/
inductive Stands : Mark → Cursor → Cursor → Prop
  | word {id : String} {c : Cursor} (h : c.SeesName id) : Stands (.word id) c c.behind
  | dotted {id key : String} {c : Cursor} {point : Punctuator} (name : c.SeesName id)
      (isPoint : point = .dot ∨ point = .questionDot) (dot : c.behind.SeesMark point)
      (h : c.behind.behind.SeesName key) : Stands (.dotted id key) c c.behind.behind.behind
  | bracketed {id : String} {value : Expr} {c : Cursor} (name : c.SeesName id)
      (h : c.behind.SeesMark .openBracket) (inner : c.behind.behind.SeesInBrackets value) :
      Stands (.bracketed id value.givenName?) c c.behind.behind
  | optional {id : String} {value : Expr} {c : Cursor} (name : c.SeesName id)
      (dot : c.behind.SeesMark .questionDot) (h : c.behind.behind.SeesMark .openBracket)
      (inner : c.behind.behind.behind.SeesInBrackets value) :
      Stands (.bracketed id value.givenName?) c c.behind.behind.behind

/-- Marks stand between two cursors, in order. Other tokens may stand before, between and behind
them, regular expressions and texts of templates as well. -/
inductive Traces : List Mark → Cursor → Cursor → Prop
  | done {c : Cursor} : Traces [] c c
  | skip {marks : List Mark} {c c' : Cursor} (real : c.next.token.isReal = true)
      (rest : Traces marks c.behind c') : Traces marks c c'
  | regex {marks : List Mark} {value : String × String} {c c' : Cursor} {text : List Char}
      (slash : c.SeesMark .slash ∨ c.SeesMark .slashAssign)
      (h : regex (c.next.start.drop 1) = some (value, text))
      (rest : Traces marks (.front .inside text) c') : Traces marks c c'
  | quasi {marks : List Mark} {value : Quasi × Bool} {c c' : Cursor} {text : List Char}
      (quote : c.SeesMark .backtick ∨ c.SeesMark .closeBrace)
      (h : quasi c.next.rest = some (value, text))
      (rest : Traces marks (.front .inside text) c') : Traces marks c c'
  | mark {marks : List Mark} {mark : Mark} {c c₁ c' : Cursor} (h : Stands mark c c₁)
      (rest : Traces marks c₁ c') : Traces (mark :: marks) c c'

namespace Traces

variable {first second : List Mark}

theorem trans (h : Traces first c d) (h' : Traces second d c') :
    Traces (first ++ second) c c' := by
  induction h with
  | done => exact h'
  | skip real _ ih => exact .skip real (ih h')
  | regex slash hr _ ih => exact .regex slash hr (ih h')
  | quasi quote hq _ ih => exact .quasi quote hq (ih h')
  | mark hm _ ih => exact .mark hm (ih h')

theorem one {mark : Mark} (h : Stands mark c c') : Traces [mark] c c' := .mark h .done

theorem token (h : c.next.token.isReal = true) : Traces [] c c.behind := .skip h .done

theorem word {id : String} (h : c.SeesName id) : Traces [] c c.behind := by
  obtain ⟨escaped, h⟩ := h
  exact token (by rw [h]; rfl)

theorem punctuator {p : Punctuator} (h : c.SeesMark p) : Traces [] c c.behind :=
  token (by rw [h]; rfl)

/-- What has been read need not be looked at. -/
theorem forget (h : Traces first c c') : Traces [] c c' := by
  induction h with
  | done => exact .done
  | skip real _ ih => exact .skip real ih
  | regex slash hr _ ih => exact .regex slash hr ih
  | quasi quote hq _ ih => exact .quasi quote hq ih
  | mark hm _ ih =>
    cases hm with
    | word name => exact (word name).trans ih
    | dotted name _ dot key =>
      exact (word name).trans ((punctuator dot).trans ((word key).trans ih))
    | bracketed name bracket => exact (word name).trans ((punctuator bracket).trans ih)
    | optional name dot bracket =>
      exact (word name).trans ((punctuator dot).trans ((punctuator bracket).trans ih))

theorem snoc {mark : Mark} (h : Traces first c d) (hm : Stands mark d c') :
    Traces (first ++ [mark]) c c' := h.trans (.one hm)

theorem behind (h : Traces first c d) (hd : d.next.token.isReal = true) :
    Traces first c d.behind := by
  simpa using h.trans (.token hd)

end Traces

/-! ## Places -/

/-- A mark stands in a text behind a number of characters. -/
def Mark.StandsAt (mark : Mark) (text : List Char) (place : Nat) : Prop :=
  ∃ c c', Stands mark c c' ∧ c.left <:+ text ∧ place + c.next.start.length = text.length

/-- Marks stand in a text, one behind another, and the first of them not before a place. -/
def Placed (text : List Char) (marks : List Mark) (least : Nat) : Prop :=
  ∃ places : List Nat, List.Forall₂ (fun mark place => mark.StandsAt text place) marks places ∧
    places.Pairwise (· < ·) ∧ ∀ place ∈ places, least ≤ place

theorem Placed.mono {text : List Char} {marks : List Mark} {least least' : Nat}
    (h : Placed text marks least) (hle : least' ≤ least) : Placed text marks least' := by
  obtain ⟨places, hstand, hsorted, hleast⟩ := h
  exact ⟨places, hstand, hsorted, fun place hplace => Nat.le_trans hle (hleast place hplace)⟩

theorem Placed.cons {text : List Char} {mark : Mark} {marks : List Mark} {place : Nat}
    (hmark : mark.StandsAt text place) (h : Placed text marks (place + 1)) :
    Placed text (mark :: marks) place := by
  obtain ⟨places, hstand, hsorted, hleast⟩ := h
  refine ⟨place :: places, .cons hmark hstand, .cons (fun p hp => hleast p hp) hsorted, ?_⟩
  intro p hp
  rcases List.mem_cons.mp hp with rfl | hp
  · exact Nat.le_refl _
  · exact Nat.le_of_succ_le (hleast p hp)

/-- What is left is less than what the next token begins with. -/
def Cursor.Shrinks (c c' : Cursor) : Prop :=
  c'.left <:+ c.next.start ∧ c'.left.length < c.next.start.length

theorem Cursor.shrinks_behind (h : c.next.token.isReal = true) : c.Shrinks c.behind :=
  ⟨(Move.next h).suffix_left, Cursor.rest_lt_start h⟩

theorem Cursor.Shrinks.trans (h : c.Shrinks d) (h' : d.Shrinks c') : c.Shrinks c' :=
  ⟨h'.1.trans (d.start_suffix.trans h.1),
    Nat.lt_of_lt_of_le h'.2 (Nat.le_trans d.start_le_left (Nat.le_of_lt h.2))⟩

theorem Stands.shrinks {mark : Mark} (h : Stands mark c c') : c.Shrinks c' := by
  have name {c : Cursor} {id : String} (h : c.SeesName id) : c.Shrinks c.behind := by
    obtain ⟨escaped, h⟩ := h
    exact Cursor.shrinks_behind (by rw [h]; rfl)
  have punctuator {c : Cursor} {p : Punctuator} (h : c.SeesMark p) : c.Shrinks c.behind :=
    Cursor.shrinks_behind (by rw [h]; rfl)
  cases h with
  | word h => exact name h
  | dotted hid _ hdot hkey => exact (name hid).trans ((punctuator hdot).trans (name hkey))
  | bracketed hid hopen => exact (name hid).trans (punctuator hopen)
  | optional hid hdot hopen => exact (name hid).trans ((punctuator hdot).trans (punctuator hopen))

theorem Cursor.Shrinks.of_suffix {text : List Char} (hs : text <:+ c.next.rest)
    (h : c.next.token.isReal = true) : c.Shrinks (.front .inside text) :=
  ⟨hs.trans (c.rest_suffix h), Nat.lt_of_le_of_lt hs.length_le (Cursor.rest_lt_start h)⟩

theorem Cursor.shrinks_regex {value : String × String} {text : List Char}
    (hs : c.SeesMark .slash ∨ c.SeesMark .slashAssign)
    (h : Script.regex (c.next.start.drop 1) = some (value, text)) :
    c.Shrinks (.front .inside text) := by
  refine .of_suffix (regex_tight_rest hs h).suffix ?_
  rcases hs with hs | hs <;> rw [hs] <;> rfl

theorem Cursor.shrinks_quasi {value : Quasi × Bool} {text : List Char}
    (hq : c.SeesMark .backtick ∨ c.SeesMark .closeBrace)
    (h : Script.quasi c.next.rest = some (value, text)) : c.Shrinks (.front .inside text) := by
  refine .of_suffix (quasi_scans.suffix h) ?_
  rcases hq with hq | hq <;> rw [hq] <;> rfl

/-- Marks that are traced in a text stand there, each behind the one before. -/
theorem Traces.placed {marks : List Mark} {text : List Char} (h : Traces marks c c')
    (hc : c.left <:+ text) : Placed text marks (text.length - c.left.length) := by
  have later {marks : List Mark} {c c₁ : Cursor} (hs : c.Shrinks c₁) (hc : c.left <:+ text)
      (ih : c₁.left <:+ text → Placed text marks (text.length - c₁.left.length)) :
      Placed text marks (text.length - c.next.start.length + 1) := by
    refine (ih (hs.1.trans (c.start_suffix.trans hc))).mono ?_
    have := hs.2
    have := Nat.le_trans c.start_le_left hc.length_le
    omega
  have start (c : Cursor) : text.length - c.left.length ≤ text.length - c.next.start.length :=
    Nat.sub_le_sub_left c.start_le_left _
  have skip {marks : List Mark} {c c₁ : Cursor} (hs : c.Shrinks c₁) (hc : c.left <:+ text)
      (ih : c₁.left <:+ text → Placed text marks (text.length - c₁.left.length)) :
      Placed text marks (text.length - c.left.length) :=
    (later hs hc ih).mono (Nat.le_succ_of_le (start c))
  induction h with
  | done => exact ⟨[], .nil, .nil, by simp⟩
  | skip real _ ih => exact skip (Cursor.shrinks_behind real) hc ih
  | regex slash hr _ ih => exact skip (Cursor.shrinks_regex slash hr) hc ih
  | quasi quote hq _ ih => exact skip (Cursor.shrinks_quasi quote hq) hc ih
  | @mark marks mark c c₁ c' hm _ ih =>
    refine (Placed.cons ⟨c, c₁, hm, hc, ?_⟩ (later hm.shrinks hc ih)).mono (start c)
    have := Nat.le_trans c.start_le_left hc.length_le
    omega

/-! ## Parsers that add marks -/

namespace Parser

/-- Behind the marks that have been read, a parser reads the rest of those that are listed. -/
def Adds (pre : List Mark) (p : Parser α) (post : α → List Mark) : Prop :=
  ∀ d c a c', Traces pre d c → p c = some (a, c') → Traces (post a) d c'

/-- A parser reads other tokens, or nothing. -/
def Skips (p : Parser α) : Prop := ∀ pre, Adds pre p fun _ => pre

namespace Adds

variable {pre : List Mark} {p q : Parser α} {mid : β → List Mark} {post : α → List Mark}

theorem pure {a : α} (h : pre = post a) : Adds pre (pure a : Parser α) post := by
  intro d c b c' hd hb
  obtain ⟨rfl, rfl⟩ := Parser.pure_eq_some.mp hb
  rw [← h]
  exact hd

theorem failure : Adds pre (failure : Parser α) post := by
  intro d c a c' _ h
  cases h

theorem bind {p : Parser β} {k : β → Parser α} (hp : Adds pre p mid)
    (hk : ∀ b, Adds (mid b) (k b) post) : Adds pre (p >>= k) post := by
  intro d c a c' hd h
  obtain ⟨b, c₁, hb, hr⟩ := Parser.bind_eq_some.mp h
  exact hk b _ _ _ _ (hp _ _ _ _ hd hb) hr

theorem map {p : Parser β} {f : β → α} (hp : Adds pre p mid) (h : ∀ b, mid b = post (f b)) :
    Adds pre (f <$> p) post := by
  rw [Parser.map_eq_bind]
  exact hp.bind fun b => .pure (h b)

theorem ite {condition : Prop} [Decidable condition] (hp : Adds pre p post)
    (hq : Adds pre q post) : Adds pre (if condition then p else q) post := by
  split
  · exact hp
  · exact hq

/-- What is read is read behind the marks before it. -/
theorem mono {post' : α → List Mark} (h : Adds pre p post) (heq : ∀ a, post a = post' a) :
    Adds pre p post' := by
  intro d c a c' hd ha
  rw [← heq]
  exact h _ _ _ _ hd ha

/-- Some state holds of each round of a repetition. -/
theorem iterate {σ : Type} {I : σ → List Mark} {n : Nat} {step : σ → Parser (σ ⊕ α)}
    {s : σ} (hs : pre = I s) (h : ∀ s, Adds (I s) (step s) (Sum.elim I post)) :
    Adds pre (Parser.iterate n step s) post := by
  induction n generalizing s pre with
  | zero => exact failure
  | succ n ih =>
    rw [Parser.iterate_succ, hs]
    refine (h s).bind fun r => ?_
    cases r with
    | inl next => exact ih rfl
    | inr a => exact .pure rfl

end Adds

/-! ## Parsers that add nothing -/

namespace Skips

variable {p : Parser β} {k : β → Parser α} {pre : List Mark} {post : α → List Mark}

/-- What stands behind a parser that adds nothing adds all. -/
theorem andThen (hp : Skips p) (hk : ∀ b, Adds pre (k b) post) : Adds pre (p >>= k) post :=
  (hp pre).bind hk

theorem bind (hp : Skips p) (hk : ∀ b, Skips (k b)) : Skips (p >>= k) :=
  fun pre => hp.andThen fun b => hk b pre

theorem pure (a : α) : Skips (pure a : Parser α) := fun _ => .pure rfl

theorem failure : Skips (failure : Parser α) := fun _ => .failure

theorem map (hp : Skips p) (f : β → α) : Skips (f <$> p) := fun pre => (hp pre).map fun _ => rfl

theorem ite {condition : Prop} [Decidable condition] {p q : Parser α} (hp : Skips p)
    (hq : Skips q) : Skips (if condition then p else q) := fun pre => (hp pre).ite (hq pre)

theorem of_stay {p : Parser α} (h : ∀ c a c', p c = some (a, c') → c' = c) : Skips p := by
  intro pre d c a c' hd ha
  obtain rfl := h c a c' ha
  exact hd

theorem of_moves {p : Parser α}
    (h : ∀ c a c', p c = some (a, c') → c' = c ∨ c.next.token.isReal = true ∧ c' = c.behind) :
    Skips p := by
  intro pre d c a c' hd ha
  rcases h c a c' ha with rfl | ⟨hreal, rfl⟩
  · exact hd
  · exact hd.behind hreal

end Skips

theorem skips_peek : Skips peek := by
  refine .of_stay fun c a c' h => ?_
  cases h
  rfl

theorem skips_left : Skips left := by
  refine .of_stay fun c a c' h => ?_
  cases h
  rfl

theorem skips_peekSecond : Skips peekSecond := by
  refine .of_stay fun c a c' h => ?_
  rw [peekSecond_eq] at h
  cases h
  rfl

theorem skips_check (condition : Bool) : Skips (check condition) :=
  .of_stay fun _ _ _ h => (check_eq_some.mp h).2.symm

theorem skips_lift (o : Option α) : Skips (lift o) :=
  .of_stay fun _ _ _ h => (lift_eq_some.mp h).2.symm

theorem skips_sees (p : Punctuator) : Skips (sees p) := skips_peek.bind fun _ => .pure _

theorem skips_seesWord (word : String) : Skips (seesWord word) := skips_peek.bind fun _ => .pure _

theorem skips_textFrom (start : List Char) : Skips (textFrom start) :=
  skips_left.bind fun _ => .pure _

theorem skips_advance : Skips advance :=
  .of_moves fun _ _ _ h => .inr (advance_eq_some.mp h)

theorem skips_accept (p : Punctuator) : Skips (accept p) :=
  (skips_sees p).bind fun _ => .ite (skips_advance.bind fun _ => .pure _) (.pure _)

theorem skips_acceptWord (word : String) : Skips (acceptWord word) :=
  (skips_seesWord word).bind fun _ => .ite (skips_advance.bind fun _ => .pure _) (.pure _)

theorem skips_expect (p : Punctuator) : Skips (expect p) :=
  (skips_accept p).bind fun _ => skips_check _

theorem skips_expectWord (word : String) : Skips (expectWord word) :=
  (skips_acceptWord word).bind fun _ => skips_check _

theorem skips_identifier (m : Mode) : Skips (identifier m) :=
  skips_peek.bind fun _ => (skips_lift _).bind fun _ => skips_advance.bind fun _ => .pure _

theorem skips_endStatement : Skips endStatement :=
  skips_peek.bind fun _ => .ite skips_advance (skips_check _)

/-! ## Parsers that leave the marks of what they answer -/

/-- A parser leaves the marks of what it answers. -/
def Leaves (p : Parser α) (marks : α → List Mark) : Prop :=
  ∀ pre, Adds pre p fun a => pre ++ marks a

namespace Leaves

variable {p : Parser α} {marks : α → List Mark}

theorem traces (h : Leaves p marks) {a : α} (ha : p c = some (a, c')) : Traces (marks a) c c' :=
  h [] c c a c' .done ha

theorem failure : Leaves (failure : Parser α) marks := fun _ => .failure

theorem map {f : α → β} (h : Leaves p marks) {marks' : β → List Mark}
    (hf : ∀ a, marks a = marks' (f a)) : Leaves (f <$> p) marks' :=
  fun pre => (h pre).map fun a => by rw [hf]

theorem singleton (h : Leaves p marks) :
    Leaves (List.singleton <$> p) fun items => items.flatMap marks :=
  h.map fun a => by simp [List.singleton]

end Leaves

/-- A name that is read is a mark. -/
theorem leaves_identifier (m : Mode) : Leaves (identifier m) fun id => [.word id] := by
  intro pre d c id c' hd h
  obtain ⟨hid, rfl⟩ := identifier_eq_some.mp h
  exact hd.snoc (.word (Lexeme.identifier?_word hid))

end Parser

/-- Items with commas between them. -/
theorem Grammar.leaves_listUntil {g : Grammar} {stop : Punctuator} {item : Parser α}
    {marks : α → List Mark} (h : Parser.Leaves item marks) :
    Parser.Leaves (g.listUntil stop item) fun found => found.1.flatMap marks := by
  intro pre
  refine .iterate (I := fun s => pre ++ s.1.reverse.flatMap marks) (by simp)
    fun (items, comma) => ?_
  refine (Parser.skips_accept stop).andThen fun _ => .ite (.pure rfl) ?_
  refine (h _).bind fun value => (Parser.skips_accept .comma).andThen fun _ => .ite ?_ ?_
  · exact .pure (by simp)
  · exact (Parser.skips_expect stop).andThen fun _ => .pure (by simp)

end Collector.Script
