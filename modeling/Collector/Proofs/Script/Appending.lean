import Collector.Proofs.Script.Declarations

/-!
# Declarations at the end of a body

More may stand behind the statements of a body, each part of it behind a semicolon: a declaration,
or nothing. The first semicolon ends the last statement or is an empty statement itself. So the
body that is read has the statements of the old one, perhaps an empty one, and then the parts.
-/

namespace Collector.Script

open Relation

/-! ## The statements of a body across a seam -/

namespace Agrees

open Grammar

variable {σ : Seam} {halts : Cursor → Prop} {g g' : Grammar} (h : Agrees σ g g') (m : Mode)
  (inside : Bool)

/-- What an item says does not depend on where its statement ends. -/
theorem itemOf_moved {c : Cursor} (hp : σ.Passed c) (prologue : Bool) (s : Statement)
    (c' d : Cursor) :
    (itemOf prologue (σ.moved c) s d).1.statement = (itemOf prologue c s c').1.statement ∧
      (itemOf prologue (σ.moved c) s d).2 = (itemOf prologue c s c').2 := by
  unfold itemOf
  rw [hp.next]
  dsimp only [Seam.shiftLexeme]
  rw [Seam.slice_shift_shift _ hp.sees.rest]
  split <;> exact ⟨rfl, rfl⟩

include h

theorem reads_moves (hb : σ.Blocks halts) {p q : Prefix × Cursor} (hr : g.Reads m p q) :
    TransGen Move p.2 q.2 := by
  obtain ⟨-, x, hx, -⟩ := hr
  obtain ⟨s, hs, -⟩ := item_eq_some.mp hx
  exact (h.statement hb m false true).moves hs

theorem run_moves (hb : σ.Blocks halts) {p q : Prefix × Cursor}
    (hr : ReflTransGen (g.Reads m) p q) : ReflTransGen Move p.2 q.2 := by
  induction hr with
  | refl => exact .refl
  | tail _ hr ih => exact ih.trans (h.reads_moves m hb hr).to_reflTransGen

/-- One statement of a body, which may stop behind the semicolon at the seam. -/
theorem reads (hb : σ.Blocks halts) {p q : Prefix × Cursor} (hr : g.Reads m p q)
    (hok : σ.Ok halts q.2) :
    ∃ r : Prefix × Cursor, g'.Reads (m.widen inside) (p.1, σ.moved p.2) r ∧
      r.1.1.map Item.statement = q.1.1.map Item.statement ∧ σ.Done halts q.2 r.2 ∧
      (r.2 = σ.moved q.2 → r.1 = q.1) := by
  obtain ⟨hc, x, hx, hq⟩ := hr
  obtain ⟨s, hs, rfl⟩ := item_eq_some.mp hx
  have statement := h.statement hb m inside true
  obtain ⟨d, hd, hdone⟩ := statement.keeps hs hok
  have hp := Seam.passed_of_moves (statement.moves hs) hok
  let x := itemOf p.1.2 (σ.moved p.2) s d
  obtain ⟨hsame, hflag⟩ := itemOf_moved hp p.1.2 s q.2 d
  refine ⟨((x.1 :: p.1.1, x.2), d), ⟨by rw [hp.next]; exact hc, x,
    item_eq_some.mpr ⟨s, hd, rfl⟩, rfl⟩, ?_, hdone, ?_⟩
  · rw [hq]
    simp [x, hsame]
  · rintro rfl
    rw [hq]
    simp only [x]
    rw [Seam.itemOf_moved hp hok.left]

/-- The statements of a body up to a place at the seam, or behind the semicolon there. -/
theorem run (hb : σ.Blocks halts) {p q : Prefix × Cursor} (hr : ReflTransGen (g.Reads m) p q)
    (hok : σ.Ok halts q.2) :
    ∃ r : Prefix × Cursor, ReflTransGen (g'.Reads (m.widen inside)) (p.1, σ.moved p.2) r ∧
      r.1.1.map Item.statement = q.1.1.map Item.statement ∧ σ.Done halts q.2 r.2 := by
  induction hr using ReflTransGen.head_induction_on with
  | refl => exact ⟨_, .refl, rfl, .inl rfl⟩
  | @head p p₁ hr hrest ih =>
    have hm := h.run_moves m hb hrest
    obtain ⟨r, hread, hsame, hdone, heq⟩ := h.reads m inside hb hr (Seam.ok_of_moves hm hok)
    rcases hdone with hd | ⟨hstop, hat, hh, hd⟩
    · obtain ⟨r', hrun, hr'⟩ := ih
      refine ⟨r', .head ?_ hrun, hr'⟩
      rwa [← heq hd, ← hd]
    · -- Behind the seam nothing more was read on the old side.
      rcases ReflTransGen.cases_head hrest with rfl | ⟨p₂, hr₂, hrest₂⟩
      · exact ⟨r, .single hread, hsame, .inr ⟨hstop, hat, hh, hd⟩⟩
      · exact (hat.not_moves ((h.reads_moves m hb hr₂).trans_left
          (h.run_moves m hb hrest₂)) hok).elim

end Agrees

/-! ## What stands behind the statements of a body -/

/-- The text of a declaration, or nothing. -/
def entryText : Option Function → String
  | some f => f.source
  | none => ""

/-- The item that a declaration is. -/
def entryItems : Option Function → List Item
  | some f => [⟨"", f.source, .function f⟩]
  | none => []

/-- The text of declarations, each behind a semicolon. -/
def appended (entries : List (Option Function)) : String :=
  String.join (entries.map fun entry => ";" ++ entryText entry)

/-- The items of declarations and of the semicolons before them. -/
def appendedItems (entries : List (Option Function)) : List Item :=
  entries.flatMap fun entry => ⟨"", ";", .empty⟩ :: entryItems entry

/-- Declarations that are read the same wherever they stand. -/
def PortableEntry (entry : Option Function) : Prop := ∀ f ∈ entry, ∃ name, f.Portable name

theorem reads_entry {entry : Option Function} (h : PortableEntry entry) (state : Grammar.Prefix)
    (rest : List Char) : ∃ flag, ∀ᶠ g in large, ReflTransGen (g.Reads Mode.plain)
      (state, .front .inside ((entryText entry).toList ++ rest))
      (((entryItems entry).reverse ++ state.1, flag), .front .inside rest) := by
  cases entry with
  | none => exact ⟨state.2, .of_forall fun _ => .refl⟩
  | some f =>
    obtain ⟨name, hf⟩ := h f rfl
    refine ⟨false, (hf.reads .inside ?_ state rest).mono fun g hg => .single hg⟩
    exact Mode.allows_of_free hf.free rfl rfl

/-- A semicolon is a statement. -/
theorem reads_semicolon {c : Cursor} (h : c.next.token = .punctuator .semicolon) (m : Mode)
    (state : Grammar.Prefix) : ∀ᶠ g in large, g.Reads m (state, c)
      ((⟨slice c.left c.next.start, slice c.next.start c.next.rest, .empty⟩ :: state.1, false),
        .front .inside c.next.rest) := by
  filter_upwards [eventually_above (Filter.Eventually.of_forall fun _ => trivial) 0]
  rintro _ ⟨g, fuel, -, -, rfl⟩
  have hs : g.anyStatement m true c = some (.empty, .front .inside c.next.rest) := by
    rw [Grammar.anyStatement, Parser.peek_bind, h]
    exact Parser.bind_of_eq_some (Parser.advance_of_real (by rw [h]; rfl))
  refine ⟨by simp [Grammar.endsBody, Lexeme.is, h], _, Grammar.item_eq_some.mpr ⟨_, hs, rfl⟩, ?_⟩
  simp [Grammar.itemOf, h, Cursor.front]

theorem reads_appended {entries : List (Option Function)} (h : ∀ entry ∈ entries, PortableEntry entry)
    (state : Grammar.Prefix) (rest : List Char) : ∃ flag, ∀ᶠ g in large,
      ReflTransGen (g.Reads Mode.plain)
        (state, .front .inside ((appended entries).toList ++ rest))
        (((appendedItems entries).reverse ++ state.1, flag), .front .inside rest) := by
  induction entries generalizing state with
  | nil => exact ⟨state.2, .of_forall fun _ => .refl⟩
  | cons entry entries ih =>
    have htext : (appended (entry :: entries)).toList ++ rest =
        ';' :: ((entryText entry).toList ++ ((appended entries).toList ++ rest)) := by
      simp [appended, String.join_cons]
    obtain ⟨hentry, hentries⟩ := List.forall_mem_cons.mp h
    have hsemi := reads_semicolon (c := .front .inside (';' :: ((entryText entry).toList ++
      ((appended entries).toList ++ rest)))) (by rw [next_of_bracket (p := .semicolon) (by decide)])
      Mode.plain state
    rw [next_of_bracket (p := .semicolon) (by decide)] at hsemi
    obtain ⟨flag, hfirst⟩ := reads_entry hentry (⟨"", ";", .empty⟩ :: state.1, false)
      ((appended entries).toList ++ rest)
    obtain ⟨flag', hmore⟩ := ih hentries ((entryItems entry).reverse ++
      ⟨"", ";", .empty⟩ :: state.1, flag)
    refine ⟨flag', ?_⟩
    filter_upwards [hsemi, hfirst, hmore] with g hsemi hfirst hmore
    rw [htext]
    refine .head ?_ (hfirst.trans ?_)
    · simpa [slice, Cursor.front] using hsemi
    · simpa [appendedItems] using hmore

theorem not_else {entry : Option Function} (h : PortableEntry entry)
    (entries : List (Option Function)) :
    (lex .inside ((entryText entry).toList ++ ((appended entries).toList ++ ['\x7d']))).isWord
      "else" = false := by
  cases entry with
  | some f =>
    obtain ⟨name, hf⟩ := h f rfl
    obtain ⟨tail, -, hsource⟩ := hf.source_append ((appended entries).toList ++ ['\x7d'])
    show (lex .inside (f.source.toList ++ _)).isWord "else" = false
    rw [hsource, lex_declaration]
    rfl
  | none =>
    cases entries with
    | nil => decide
    | cons entry entries =>
      have htext : (entryText none).toList ++ ((appended (entry :: entries)).toList ++ ['\x7d']) =
          ';' :: ((entryText entry).toList ++ ((appended entries).toList ++ ['\x7d'])) := by
        simp [appended, entryText, String.join_cons]
      rw [htext, lex_bracket (p := .semicolon) _ (by decide)]
      rfl

/-! ## The semicolon behind a body -/

/-- The statements of a body are read up to a semicolon behind them, in front of other text. -/
structure StopsBefore (body : Body) (more : List Char) (r : Grammar.Prefix × Cursor) : Prop where
  run : ∀ᶠ g in large, ReflTransGen (g.Reads Mode.plain)
    (([], true), .front .inside (body.source.toList ++ ';' :: more)) r
  statements : r.1.1.map Item.statement = (body.items.map Item.statement).reverse
  token : r.2.next.token = .punctuator .semicolon
  start : r.2.next.start = ';' :: more
  rest : r.2.next.rest = more

/-- The statements of a body are read with the semicolon behind them, which ends the last one. -/
structure StopsBehind (body : Body) (more : List Char) (state : Grammar.Prefix) : Prop where
  run : ∀ᶠ g in large, ReflTransGen (g.Reads Mode.plain)
    (([], true), .front .inside (body.source.toList ++ ';' :: more)) (state, .front .inside more)
  statements : state.1.map Item.statement = (body.items.map Item.statement).reverse

section Semicolon

variable {body : Body} {more more' : List Char}

/-- A semicolon in the place of the brace behind a body ends the last statement, or does not. -/
theorem ReadsBody.stops (hb : ReadsBody body)
    (helse : (lex .inside more).isWord "else" = false) :
    (∃ r, StopsBefore body more r) ∨ ∃ state, StopsBehind body more state := by
  obtain ⟨e, he, hrest, hbody⟩ := hb []
  obtain ⟨fuel, level, hbody⟩ := exists_grammar hbody
  have hreal : e.next.token.isReal = true := by rw [he]; rfl
  have hstart : e.next.start = ['\x7d'] := by
    rw [Cursor.start_of_bracket (mem_brackets .brace) he, hrest]
    rfl
  obtain ⟨q, hq, rfl, -, hq'⟩ := Grammar.reads_of_body hbody
  let σ := Seam.before q.2.next.start .semicolon more
  have hblocks : σ.Blocks (· = q.2) := by
    rintro _ rfl
    exact ⟨.inl he, .inr rfl, fun _ => helse⟩
  have hok : σ.Ok (· = q.2) q.2 := .inr ⟨Seam.before_atSeam hreal .semicolon more, rfl⟩
  obtain ⟨r, hrun, hsame, hdone⟩ :=
    (agrees_grammar le_rfl le_rfl).run Mode.plain false hblocks hq hok
  have hmoved : σ.moved (.front .inside (body.source.toList ++ ['\x7d'])) =
      .front .inside (body.source.toList ++ ';' :: more) := by
    rw [← hstart]
    exact congrArg (Cursor.front .inside) (σ.shift_append body.source.toList)
  rw [Mode.widen_false, hmoved] at hrun
  have hstatements : r.1.1.map Item.statement = (body.items.map Item.statement).reverse := by
    rw [hsame, hq', Grammar.bodyOf, List.map_reverse, List.reverse_reverse]
  rcases hdone with hd | ⟨-, -, -, hd⟩
  · have hnext : r.2.next = ⟨.punctuator .semicolon, q.2.next.newline, ';' :: more, more⟩ := by
      rw [hd]
      exact Seam.before_next hreal .semicolon more
    exact .inl ⟨r, run_lift hrun, hstatements, by rw [hnext], by rw [hnext], by rw [hnext]⟩
  · refine .inr ⟨r.1, ?_, hstatements⟩
    rw [show (r.1, Cursor.front .inside more) = r from Prod.ext rfl hd.symm]
    exact run_lift hrun

/-- Statements that leave a semicolon leave it whatever stands behind it. -/
theorem StopsBefore.replace {r : Grammar.Prefix × Cursor} (h : StopsBefore body more r)
    (helse : (lex .inside more').isWord "else" = false) : ∃ r, StopsBefore body more' r := by
  obtain ⟨fuel, level, hrun⟩ := exists_grammar h.run
  have hreal : r.2.next.token.isReal = true := by rw [h.token]; rfl
  let σ := Seam.before r.2.next.start .semicolon more'
  have hblocks : σ.Blocks (· = r.2) := by
    rintro _ rfl
    exact ⟨.inr ⟨h.token, rfl⟩, .inr rfl, fun _ => helse⟩
  have hok : σ.Ok (· = r.2) r.2 := .inr ⟨Seam.before_atSeam hreal .semicolon more', rfl⟩
  obtain ⟨r', hrun', hsame, hdone⟩ :=
    (agrees_grammar le_rfl le_rfl).run Mode.plain false hblocks hrun hok
  have hmoved : σ.moved (.front .inside (body.source.toList ++ ';' :: more)) =
      .front .inside (body.source.toList ++ ';' :: more') := by
    rw [← h.start]
    exact congrArg (Cursor.front .inside) (σ.shift_append body.source.toList)
  rw [Mode.widen_false, hmoved] at hrun'
  rcases hdone with hd | ⟨⟨-, hbrace⟩, -⟩
  · have hnext : r'.2.next = ⟨.punctuator .semicolon, r.2.next.newline, ';' :: more', more'⟩ := by
      rw [hd]
      exact Seam.before_next hreal .semicolon more'
    exact ⟨r', run_lift hrun', hsame.trans h.statements, by rw [hnext], by rw [hnext],
      by rw [hnext]⟩
  · cases h.token.symm.trans hbrace

/-- A semicolon behind a body ends its last statement or is a statement, and what stands behind the
semicolon does not decide which. -/
theorem ReadsBody.semicolon (hb : ReadsBody body) : ∃ statements : List Statement,
    (statements = body.items.map Item.statement ∨
      statements = body.items.map Item.statement ++ [.empty]) ∧
    ∀ more, (lex .inside more).isWord "else" = false → ∃ state : Grammar.Prefix,
      state.1.map Item.statement = statements.reverse ∧
      ∀ᶠ g in large, ReflTransGen (g.Reads Mode.plain)
        (([], true), .front .inside (body.source.toList ++ ';' :: more))
        (state, .front .inside more) := by
  by_cases h : ∃ more r, StopsBefore body more r
  · obtain ⟨more, r, h⟩ := h
    refine ⟨_, .inr rfl, fun more' helse => ?_⟩
    obtain ⟨r', h'⟩ := h.replace helse
    have hsemi := reads_semicolon h'.token Mode.plain r'.1
    rw [h'.rest] at hsemi
    refine ⟨_, ?_, by filter_upwards [h'.run, hsemi] with g hrun hsemi using hrun.tail hsemi⟩
    rw [List.map_cons, h'.statements, List.reverse_append]
    rfl
  · refine ⟨_, .inl rfl, fun more helse => ?_⟩
    rcases hb.stops helse with hbefore | ⟨state, hbehind⟩
    · exact (h ⟨more, hbefore⟩).elim
    · exact ⟨state, hbehind.statements, hbehind.run⟩

end Semicolon

/-- A body behind which declarations stand. -/
theorem ReadsBody.append {body : Body} (hb : ReadsBody body) : ∃ statements : List Statement,
    (statements = body.items.map Item.statement ∨
      statements = body.items.map Item.statement ++ [.empty]) ∧
    ∀ {entry : Option Function} {entries : List (Option Function)}, PortableEntry entry →
      (∀ entry ∈ entries, PortableEntry entry) →
      ∃ base : List Item, base.map Item.statement = statements ∧
        String.join (base.map Item.source) = body.source ++ ";" ∧
        ReadsBody ⟨base ++ (entryItems entry ++ appendedItems entries), ""⟩ := by
  obtain ⟨statements, hcases, hsemicolon⟩ := hb.semicolon
  refine ⟨statements, hcases, fun {entry entries} h hs => ?_⟩
  let more := (entryText entry).toList ++ ((appended entries).toList ++ ['\x7d'])
  obtain ⟨state, hstatements, hbase⟩ := hsemicolon more (not_else h entries)
  have hsource : String.join (state.1.reverse.map Item.source) = body.source ++ ";" := by
    obtain ⟨fuel, level, hrun⟩ := exists_grammar hbase
    have htext := textAt_of_run hrun
    refine String.toList_inj.mp ((List.append_left_inj more).mp ?_)
    simpa [Grammar.textAt, Cursor.front, String.join] using htext
  obtain ⟨flag, hentry⟩ := reads_entry h state ((appended entries).toList ++ ['\x7d'])
  obtain ⟨flag', hmore⟩ := reads_appended hs ((entryItems entry).reverse ++ state.1, flag) ['\x7d']
  have hread := eventually_body (q := ((_, flag'), .front .inside ['\x7d']))
    (by filter_upwards [hbase, hentry, hmore] with g hbase hentry hmore
        exact hbase.trans (hentry.trans hmore)) rfl
  refine ⟨state.1.reverse, ?_, hsource, ?_⟩
  · rw [List.map_reverse, hstatements, List.reverse_reverse]
  · have hbody : Grammar.bodyOf (((appendedItems entries).reverse ++ ((entryItems entry).reverse ++
        state.1), flag'), .front .inside ['\x7d']) =
        ⟨state.1.reverse ++ (entryItems entry ++ appendedItems entries), ""⟩ := by
      have hlex : (lex .inside ['\x7d']).start = ['\x7d'] := rfl
      simp [Grammar.bodyOf, slice, Cursor.front, hlex]
    rw [hbody] at hread
    exact readsBody_of_eventually hread rfl

end Collector.Script
