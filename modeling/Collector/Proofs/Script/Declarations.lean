import Collector.Proofs.Script.Portable
import Collector.Proofs.Script.Trees

/-!
# Texts that are one declaration

A text that begins with `function`, a name and a parenthesis is a declaration wherever it
stands among statements. If the function is portable, its text is read as that function and nothing
else, whatever stands behind it.
-/

namespace Collector.Script

open Relation

/-- A text that begins like the declaration of a function. -/
def declarationText (name : String) (tail : List Char) : List Char :=
  "function".toList ++ ' ' :: (name.toList ++ '(' :: tail)

section Lexing

variable {origin : Origin} {name : String} {tail : List Char}

theorem lex_declaration (origin : Origin) (name : String) (tail : List Char) :
    lex origin (declarationText name tail) =
      ⟨.word "function" false, origin != .inside, declarationText name tail,
        ' ' :: (name.toList ++ '(' :: tail)⟩ :=
  (IsWord.of_plain (by decide)).lex_eq rfl

theorem lex_blank {text : List Char} (h : (lex .inside text).token.isReal = true) :
    lex .inside (' ' :: text) = lex .inside text := by
  have hblank : skipBefore .inside (' ' :: text) = skipBefore .inside text :=
    skipGap_blank text (.inr (by decide))
  unfold lex at h ⊢
  rw [hblank]
  cases hs : skipBefore .inside text with
  | none => simp [hs, Token.isReal] at h
  | some found => rfl

/-- The name behind the keyword. -/
theorem lex_declared (h : IsWord name) (tail : List Char) :
    lex .inside (' ' :: (name.toList ++ '(' :: tail)) =
      ⟨.word name false, false, name.toList ++ '(' :: tail, '(' :: tail⟩ := by
  have hlex : lex .inside (name.toList ++ '(' :: tail) = _ := h.lex_eq rfl
  rw [lex_blank (by rw [hlex]; rfl), hlex]
  rfl

end Lexing

namespace Grammar

variable {g : Grammar} {m : Mode} {origin : Origin} {name : String} {tail : List Char}

/-- A keyword with a name behind it, as a named function has them that is neither async nor a
generator. -/
structure Heads (c : Cursor) (name : String) (behind : Cursor) : Prop where
  keyword : c.next.token = .word "function" false
  name : ∃ escaped, (Cursor.front .inside c.next.rest).next.token = .word name escaped
  behind : behind = .front .inside (Cursor.front .inside c.next.rest).next.rest

section Heads

variable {c c' behind : Cursor} {f : Function}

/-- A function with a name. In a declaration the name follows the rules of the place. -/
theorem Heads.function_iff (h : Heads c name behind) (isDeclaration : Bool) :
    g.function m isDeclaration c = some (f, c') ↔
      (if isDeclaration then m else functionMode false false).allows name = true ∧
        g.functionRest false false (some name) c.next.start behind = some (f, c') := by
  obtain ⟨hkeyword, ⟨escaped, hname⟩, rfl⟩ := h
  have run : g.function m isDeclaration c =
      (Parser.identifier (if isDeclaration then m else functionMode false false) >>= fun id =>
        g.functionRest false false (some id) c.next.start) (.front .inside c.next.rest) := by
    show (Parser.acceptWord "async" >>= g.functionBehind m isDeclaration _) _ = _
    rw [(Parser.acceptWord_accepts "async").bind_false (by rw [hkeyword]; simp), functionBehind,
      Parser.bind_of_eq_some (Parser.expectWord_eq_some (u := ()).mpr ⟨hkeyword, rfl⟩),
      (Parser.accept_accepts .star).bind_false (by simp [hname]), Parser.sees_bind,
      Parser.peek_bind, Lexeme.is, hname, if_neg (by simp)]
    simp only [Parser.map_eq_bind, bind_assoc, pure_bind]
  generalize (if isDeclaration then m else functionMode false false) = nameMode at run ⊢
  rw [run, Parser.bind_eq_some]
  simp only [Parser.identifier_eq_some, hname, Lexeme.identifier?]
  constructor
  · rintro ⟨id, c₁, ⟨hid, rfl⟩, hf⟩
    split at hid
    next hallows =>
      cases hid
      exact ⟨hallows, hf⟩
    · cases hid
  · rintro ⟨hallows, hf⟩
    exact ⟨name, _, ⟨by rw [if_pos hallows], rfl⟩, hf⟩

/-- A named function that is neither async nor a generator begins with its keyword and its name. -/
theorem exists_heads {isDeclaration : Bool} (h : g.function m isDeclaration c = some (f, c'))
    (ha : f.isAsync = false) (hg : f.isGenerator = false) (hname : f.name = some name) :
    ∃ behind, Heads c name behind := by
  replace h : (Parser.acceptWord "async" >>= g.functionBehind m isDeclaration c.next.start) c =
      some (f, c') := h
  obtain ⟨isAsync, c₁, hasync, hbehind⟩ := Parser.bind_eq_some.mp h
  unfold functionBehind at hbehind
  obtain ⟨_, c₂, hkeyword, hbehind⟩ := Parser.bind_eq_some.mp hbehind
  obtain ⟨isGenerator, c₃, hstar, h⟩ := Parser.bind_eq_some.mp hbehind
  clear hbehind
  rw [(Parser.acceptWord_accepts "async").run] at hasync
  rw [(Parser.accept_accepts .star).run] at hstar
  rw [Parser.sees_bind, Parser.peek_bind] at h
  obtain ⟨hword, rfl⟩ := Parser.expectWord_eq_some.mp hkeyword
  split at h
  · obtain ⟨_, _, _, _, -, -, rfl⟩ := functionRest_eq_some.mp h
    cases hname
  · obtain ⟨found, c₄, hfound, h⟩ := Parser.bind_eq_some.mp h
    obtain ⟨id, hid, rfl⟩ := Parser.map_eq_some.mp hfound
    obtain ⟨_, _, _, _, -, -, rfl⟩ := functionRest_eq_some.mp h
    obtain rfl : isAsync = false := ha
    obtain rfl : isGenerator = false := hg
    obtain rfl := Option.some.inj hname
    have hc₁ : c = c₁ := by
      split at hasync
      · cases hasync
      · exact (Prod.mk.inj (Option.some.inj hasync)).2
    subst hc₁
    have hc₃ : Cursor.front .inside c.next.rest = c₃ := by
      split at hstar
      · cases hstar
      · exact (Prod.mk.inj (Option.some.inj hstar)).2
    subst hc₃
    exact ⟨_, hword, Lexeme.identifier?_word (Parser.identifier_eq_some.mp hid).1, rfl⟩

/-- A statement that the keyword begins is a function. -/
theorem anyStatement_of_keyword {inList : Bool} (h : c.next.token = .word "function" false) :
    g.anyStatement m inList c = g.functionStatement m inList c := by
  obtain ⟨other, word⟩ : ∃ other, g.wordStatement m inList "function" =
      seesFunction >>= fun isFunction =>
        if isFunction then g.functionStatement m inList else other := ⟨_, rfl⟩
  rw [anyStatement, Parser.peek_bind, h]
  dsimp only
  rw [word, Parser.bind_of_eq_some (seesFunction_eq _), functionAt, Lexeme.isWord, h]
  rfl

theorem Heads.anyStatement_iff (h : Heads c name behind) {s : Statement} :
    g.anyStatement m true c = some (s, c') ↔ m.allows name = true ∧ ∃ f, s = .function f ∧
      g.functionRest false false (some name) c.next.start behind = some (f, c') := by
  have body : g.functionStatement m true = g.function m true >>= fun f =>
      Parser.check f.name.isSome >>= fun _ => Parser.check (true || !(f.isAsync || f.isGenerator))
        >>= fun _ => pure (.function f) := rfl
  rw [anyStatement_of_keyword h.keyword, body, Parser.bind_eq_some]
  simp only [h.function_iff, if_true]
  constructor
  · rintro ⟨f, c₁, ⟨hallows, hf⟩, hs⟩
    simp only [Parser.bind_eq_some, Parser.check_eq_some, Parser.pure_eq_some] at hs
    obtain ⟨-, c₂, ⟨-, rfl⟩, -, c₃, ⟨-, rfl⟩, rfl, rfl⟩ := hs
    exact ⟨hallows, f, rfl, hf⟩
  · rintro ⟨hallows, f, rfl, hf⟩
    refine ⟨f, c', ⟨hallows, hf⟩, ?_⟩
    obtain ⟨params, text, c₁, body, -, -, rfl⟩ := functionRest_eq_some.mp hf
    rfl

end Heads

theorem heads_declared (h : IsWord name) :
    Heads (.front origin (declarationText name tail)) name (.front .inside ('(' :: tail)) := by
  have hnext : (Cursor.front origin (declarationText name tail)).next =
      ⟨.word "function" false, origin != .inside, declarationText name tail,
        ' ' :: (name.toList ++ '(' :: tail)⟩ := lex_declaration origin name tail
  have hname : (Cursor.front .inside (' ' :: (name.toList ++ '(' :: tail))).next =
      ⟨.word name false, false, name.toList ++ '(' :: tail, '(' :: tail⟩ := lex_declared h tail
  exact ⟨by rw [hnext], ⟨false, by rw [hnext, hname]⟩, by rw [hnext, hname]⟩

/-- Where a declaration begins, its whole text is left. -/
theorem start_declared (name : String) (tail : List Char) :
    (Cursor.front origin (declarationText name tail)).next.start = declarationText name tail := by
  show (lex origin _).start = _
  rw [lex_declaration]

theorem function_named (h : IsWord name) (isDeclaration : Bool) {f : Function}
    {c' : Cursor} :
    g.function m isDeclaration (.front origin (declarationText name tail)) = some (f, c') ↔
      (if isDeclaration then m else functionMode false false).allows name = true ∧
        g.functionRest false false (some name) (declarationText name tail)
          (.front .inside ('(' :: tail)) = some (f, c') := by
  rw [(heads_declared h).function_iff, start_declared]

theorem anyStatement_declared (h : IsWord name) {s : Statement} {c' : Cursor} :
    g.anyStatement m true (.front origin (declarationText name tail)) = some (s, c') ↔
      m.allows name = true ∧ ∃ f, s = .function f ∧
        g.functionRest false false (some name) (declarationText name tail)
          (.front .inside ('(' :: tail)) = some (f, c') := by
  rw [(heads_declared h).anyStatement_iff, start_declared]

end Grammar

/-! ## Portable functions -/

theorem parseScript?_eq_some {source : String} {body : Body} (h : parseScript? source = some body) :
    ∃ c, (grammarFor source.toList).body Mode.script (.front .script source.toList) = some (body, c) ∧
      c.next.token = .finish ∧ body.tree.isPending = false := by
  obtain ⟨⟨found, c⟩, hg, h⟩ := Option.bind_eq_some_iff.mp h
  dsimp only at h
  split at h
  next hc =>
    cases h
    obtain ⟨hfinish, hpending⟩ := Bool.and_eq_true_iff.mp hc
    exact ⟨c, hg, by simpa using hfinish, by simpa using hpending⟩
  · cases h

theorem Mode.allows_of_free {m : Mode} {name : String} (h : reservedWords.contains name = false)
    (ha : m.isAsync = false) (hg : m.isGenerator = false) : m.allows name = true := by
  rw [Mode.allows, h, ha, hg]
  rfl

/-- Large grammars read a text as the declaration of a function, and as nothing else. -/
def DeclaresOnly (text : String) (f : Function) : Prop :=
  ∃ c : Cursor, c.next.token = .finish ∧ ∀ᶠ g in large,
    g.body Mode.script (.front .script text.toList) = some (⟨[⟨"", text, .function f⟩], ""⟩, c)

/-- A script that declares a function and nothing else. -/
theorem DeclaresOnly.parseScript_eq {text : String} {f : Function} (h : DeclaresOnly text f)
    {body : Body} (hb : parseScript? text = some body) :
    body = ⟨[⟨"", text, .function f⟩], ""⟩ ∧ f.tree.isPending = false := by
  obtain ⟨c, hg, -, hpending⟩ := parseScript?_eq_some hb
  obtain ⟨c', -, hbody⟩ := h
  have hp {g g' : Grammar} (hag : Agrees .same g g') :
      Follows .same never (g.body Mode.script) (g'.body Mode.script) := by
    have := hag.body Mode.script false Seam.Closes.never
    rwa [Mode.widen_false] at this
  obtain ⟨rfl, rfl⟩ :=
    Prod.mk.inj (eq_of_eventually (p := fun g => g.body Mode.script) hp hg hbody)
  refine ⟨rfl, ?_⟩
  have hnode : (Tree.node .other [f.tree]).isPending = false := hpending
  rwa [Tree.isPending_other, List.any_cons, List.any_nil, Bool.or_false] at hnode

namespace Function.Portable

variable {f : Function} {name : String} (h : f.Portable name)

include h

theorem source_append (rest : List Char) : ∃ tail,
    f.paramsText.toList ++ (f.body.block.toList ++ rest) = '(' :: tail ∧
      f.source.toList ++ rest = declarationText name tail := by
  obtain ⟨inner, hinner⟩ := h.paramsText
  have hword : "function ".toList = "function".toList ++ [' '] := by decide
  rw [h.source_eq, hword, hinner]
  unfold declarationText
  generalize "function".toList = word
  exact ⟨inner ++ ')' :: (f.body.block.toList ++ rest), by simp, by simp⟩

/-- Behind its name a portable function is read as it is, wherever it stands. -/
theorem functionRest_declared (rest : List Char) : ∃ tail,
    f.source.toList ++ rest = declarationText name tail ∧ ∀ᶠ g in large,
      g.functionRest false false (some name) (declarationText name tail)
        (.front .inside ('(' :: tail)) = some (f, .front .inside rest) := by
  obtain ⟨tail, htail, hsource⟩ := h.source_append rest
  refine ⟨tail, hsource, ?_⟩
  have hhead : slice (f.source.toList ++ rest) (f.paramsText.toList ++ (f.body.block.toList ++ rest)) =
      f.head := by
    rw [h.source_eq, List.append_assoc, List.append_assoc, List.append_assoc, ← List.append_assoc,
      slice_append, ← String.toList_append, String.ofList_toList, h.head]
  have hsame : Function.mk f.isAsync f.isGenerator f.name f.head f.params f.paramsText f.gap f.items
      f.tail = f := by
    cases f
    rfl
  have hread := h.functionRest (f.source.toList ++ rest) rest
  rwa [hhead, hsame, hsource, htail] at hread

/-- The declaration of a portable function is a statement wherever it stands. -/
theorem statement (origin : Origin) {m : Mode} (hm : m.allows name = true) (rest : List Char) :
    ∀ᶠ g in large, g.statement m true (.front origin (f.source.toList ++ rest)) =
      some (.function f, .front .inside rest) := by
  obtain ⟨tail, hsource, hread⟩ := h.functionRest_declared rest
  filter_upwards [eventually_above hread 0]
  rintro _ ⟨g, fuel, hg, -, rfl⟩
  rw [hsource]
  exact (Grammar.anyStatement_declared h.word).mpr ⟨hm, f, rfl, hg⟩

/-- The declaration of a portable function is an item of its own wherever it stands in a body. -/
theorem reads (origin : Origin) {m : Mode} (hm : m.allows name = true) (state : Grammar.Prefix)
    (rest : List Char) : ∀ᶠ g in large,
      g.Reads m (state, .front origin (f.source.toList ++ rest))
        ((⟨"", f.source, .function f⟩ :: state.1, false), .front .inside rest) := by
  obtain ⟨tail, -, hsource⟩ := h.source_append rest
  have hnext : (Cursor.front origin (f.source.toList ++ rest)).next =
      ⟨.word "function" false, origin != .inside, f.source.toList ++ rest,
        ' ' :: (name.toList ++ '(' :: tail)⟩ := by
    rw [hsource]
    exact lex_declaration origin name tail
  filter_upwards [h.statement origin hm rest] with g hg
  refine ⟨by rw [hnext]; rfl, (⟨"", f.source, .function f⟩, false),
    Grammar.item_eq_some.mpr ⟨_, hg, ?_⟩, rfl⟩
  unfold Grammar.itemOf
  rw [hnext]
  simp [slice, Cursor.front]

/-- The text of a portable function, as a script, declares that function and nothing else. -/
theorem declaresOnly : DeclaresOnly f.source f := by
  have hread := h.reads .script (m := Mode.script) (Mode.allows_of_free h.free rfl rfl) ([], true) []
  rw [List.append_nil] at hread
  exact ⟨_, rfl, eventually_body (hread.mono fun g hg => .single hg) rfl⟩

theorem parseScript_eq {body : Body} (hb : parseScript? f.source = some body) :
    body = ⟨[⟨"", f.source, .function f⟩], ""⟩ ∧ f.tree.isPending = false := by
  obtain ⟨rfl, hpending⟩ := h.declaresOnly.parseScript_eq hb
  exact ⟨rfl, hpending⟩

end Function.Portable

/-! ## Scripts that begin like a declaration -/

/-- What begins like a declaration and is read as a script begins with a function. -/
theorem exists_functionRest {source name : String} {tail : List Char} {body : Body}
    (hname : IsWord name) (hs : source.toList = declarationText name tail)
    (h : parseScript? source = some body) :
    reservedWords.contains name = false ∧ ∃ fuel level f c,
      (grammar fuel level).functionRest false false (some name) (declarationText name tail)
        (.front .inside ('(' :: tail)) = some (f, c) := by
  obtain ⟨c, hg, -, -⟩ := parseScript?_eq_some h
  obtain ⟨q, hq, rfl, he, -⟩ := Grammar.reads_of_body hg
  rw [hs] at hq
  have hnext : (Cursor.front .script (declarationText name tail)).next = _ :=
    lex_declaration .script name tail
  rcases ReflTransGen.cases_head hq with rfl | ⟨r, ⟨-, x, hx, -⟩, -⟩
  · rw [hnext] at he
    cases he
  · obtain ⟨s, hst, -⟩ := Grammar.item_eq_some.mp hx
    obtain ⟨hallows, f, -, hf⟩ := (Grammar.anyStatement_declared hname).mp hst
    refine ⟨?_, _, _, f, _, hf⟩
    simp only [Mode.allows, Bool.and_eq_true, Bool.not_eq_true'] at hallows
    exact hallows.1.1

end Collector.Script
