import Collector.Proofs.Script.Cover
import Collector.Proofs.Script.Cuts
import Collector.Proofs.Text.Words

/-!
# How a list of names is laid out

The text of a parameter list that binds names only is made of the spellings of the names, of commas,
and of the gaps around them. `Laid` is this layout, and every list that is read as names has it:
`exists_laid_of_listed`.

A gap is white space and comments, so a comment may hold any text. But where a gap begins or ends no
word goes on, `IsGapText.keepsApart`, and so the words of a list are those of its pieces:
`Laid.words_eq`.
-/

namespace Collector.Script

open Collector.Text

/-! ## Gaps -/

/-- No word has a space in it. -/
theorem isWordly_space {c : Char} (h : inRanges spaceRanges c = true) : isWordly c = false := by
  have hapart : areApart spaceRanges wordOnlyRanges = true := by decide +kernel
  simp [isWordly, isIdentifierPart_space h, inRanges_of_apart hapart h]

/-- Whether a comment may begin with a character. -/
def opensComment (c : Char) : Bool := c == '/' || c == '<' || c == '-'

/-- What a text is like that is skipped before a token, from a place in it up to its end. -/
structure Skipped (mode : GapMode) (gap : List Char) : Prop where
  front : mode = .between → gap.head?.any isWordly = false
  back : gap.getLast?.any isWordly = false
  nonempty : mode ≠ .between → gap ≠ []
  blank : mode = .between → (∀ c ∈ gap, opensComment c = false) → ∀ c ∈ gap, isWordly c = false

namespace Skipped

theorem nil : Skipped .between [] where
  front _ := rfl
  back := rfl
  nonempty h := (h rfl).elim
  blank _ _ := nofun

/-- A step of the scan. Inside a comment any text may stand, but not at its end. -/
theorem append {mode mode' : GapMode} {front gap : List Char} (h : Skipped mode' gap)
    (hne : front ≠ []) (hfront : mode = .between → front.head?.any isWordly = false)
    (hback : mode' = .between → front.getLast?.any isWordly = false)
    (hblank : mode = .between → (∀ c ∈ front, opensComment c = false) →
      mode' = .between ∧ ∀ c ∈ front, isWordly c = false) : Skipped mode (front ++ gap) where
  front hm := by
    rw [List.head?_append_of_ne_nil _ hne]
    exact hfront hm
  back := by
    by_cases hgap : gap = []
    · subst hgap
      rw [List.append_nil]
      exact hback (by_contra fun hm => h.nonempty hm rfl)
    · rw [List.getLast?_append_of_ne_nil _ hgap]
      exact h.back
  nonempty _ := by simp [hne]
  blank hm hbare := by
    obtain ⟨hfrontBare, hgapBare⟩ := List.forall_mem_append.mp hbare
    obtain ⟨hm', hwords⟩ := hblank hm hfrontBare
    exact List.forall_mem_append.mpr ⟨hwords, h.blank hm' hgapBare⟩

end Skipped

/-- What is skipped before a token. The induction is along the scan, which goes into comments and
out of them. -/
theorem skipped_of_skipGap {mode : GapMode} {newline newline' : Bool} {text start : List Char}
    (h : skipGap mode newline text = some (newline', start)) (hs : start ≠ []) :
    ∃ gap, text = gap ++ start ∧ Skipped mode gap := by
  have step {mode mode' : GapMode} {text : List Char} (front : List Char)
      (ih : ∃ gap, text = gap ++ start ∧ Skipped mode' gap)
      (hw : ∀ gap, Skipped mode' gap → Skipped mode (front ++ gap)) :
      ∃ gap, front ++ text = gap ++ start ∧ Skipped mode gap := by
    obtain ⟨gap, rfl, hgap⟩ := ih
    exact ⟨front ++ gap, by simp, hw gap hgap⟩
  -- White space, which is one character and no comment.
  have blank {mode : GapMode} {c : Char} (hc : isWordly c = false) (gap : List Char)
      (hgap : Skipped .between gap) : Skipped mode ([c] ++ gap) :=
    hgap.append (by simp) (fun _ => by simpa using hc) (fun _ => by simpa using hc)
      fun _ _ => ⟨rfl, by simpa using hc⟩
  have comment {mode : GapMode} {c : Char} {front : List Char} (hc : opensComment c = true)
      (hw : isWordly c = false) (hm : mode ≠ .between) (gap : List Char) (hgap : Skipped mode gap) :
      Skipped .between (c :: front ++ gap) :=
    hgap.append (by simp) (fun _ => by simpa using hw) (fun hb => (hm hb).elim)
      fun _ hbare => by simp [hbare c (by simp)] at hc
  induction mode, newline, text using skipGap.induct with
  | case1 newline =>
    simp [skipGap] at h
    exact absurd h.2 hs
  | case2 newline c text hl ih =>
    rw [skipGap, if_pos hl] at h
    exact step [c] (ih h) (blank (isWordly_space (isSpace_of_lineEnd hl)))
  | case3 newline c text hl ih =>
    rw [skipGap, if_neg hl] at h
    exact step [c] (ih h) fun gap hgap => hgap.append (by simp) (by simp) (by simp) (by simp)
  | case4 newline => simp [skipGap] at h
  | case5 newline text ih =>
    rw [skipGap] at h
    exact step ['*', '/'] (ih h) fun gap hgap =>
      hgap.append (by simp) (by simp) (fun _ => by decide) (by simp)
  | case6 newline c text hne ih =>
    rw [skipGap.eq_5 newline c text hne] at h
    exact step [c] (ih h) fun gap hgap => hgap.append (by simp) (by simp) (by simp) (by simp)
  | case7 newline text ih =>
    rw [skipGap] at h
    exact step ['/', '/'] (ih h) (comment rfl (by decide) (by simp))
  | case8 newline text ih =>
    rw [skipGap] at h
    exact step ['/', '*'] (ih h) (comment rfl (by decide) (by simp))
  | case9 newline text ih =>
    rw [skipGap] at h
    exact step ['<', '!', '-', '-'] (ih h) (comment rfl (by decide) (by simp))
  | case10 text ih =>
    rw [skipGap] at h
    exact step ['-', '-', '>'] (ih h) (comment rfl (by decide) (by simp))
  | case11 newline c text h1 h2 h3 h4 hl ih =>
    rw [skipGap_blank text (.inl hl), if_pos hl] at h
    exact step [c] (ih h) (blank (isWordly_space (isSpace_of_lineEnd hl)))
  | case12 newline c text h1 h2 h3 h4 hl hg ih =>
    rw [skipGap_blank text (.inr hg), if_neg hl] at h
    exact step [c] (ih h) (blank (isWordly_space (isSpace_of_gap hg)))
  | case13 newline c text h1 h2 h3 h4 hl hg =>
    rw [skipGap.eq_10 newline c text h1 h2 h3 h4, if_neg hl, if_neg hg] at h
    obtain ⟨rfl, rfl⟩ := Prod.mk.inj (Option.some.inj h)
    exact ⟨[], rfl, .nil⟩
  | case14 newline =>
    simp [skipGap] at h
    exact absurd h.2 hs

/-- White space and comments that end before a token. -/
def IsGapText (text : List Char) : Prop :=
  ∃ newline, skipGap .between false (text ++ [')']) = some (newline, [')'])

namespace IsGapText

variable {gap : List Char}

theorem skipped (h : IsGapText gap) : Skipped .between gap := by
  obtain ⟨newline, hskip⟩ := h
  obtain ⟨gap', heq, hgap⟩ := skipped_of_skipGap hskip (by simp)
  rwa [List.append_cancel_right heq]

/-- No word goes on at an end of a gap, though words may stand in it. -/
theorem keepsApart (h : IsGapText gap) : KeepsApart gap := ⟨h.skipped.front rfl, h.skipped.back⟩

/-- A gap without comments has no words. -/
theorem words_eq_nil (h : IsGapText gap) (hbare : ∀ c ∈ gap, opensComment c = false) :
    words gap = [] :=
  words_of_break (h.skipped.blank rfl hbare)

end IsGapText

/-- A gap stands before the next token. -/
theorem Cursor.exists_gap {c : Cursor} (ho : c.origin = .inside) (h : c.next.token.isReal = true) :
    ∃ gap, IsGapText gap ∧ c.left = gap ++ c.next.start := by
  rw [c.next_eq, ho] at h ⊢
  cases hs : skipGap .between false c.left with
  | none => simp [lex, skipBefore, hs, Token.isReal] at h
  | some found =>
    obtain ⟨newline, start⟩ := found
    have hstart : (lex .inside c.left).start = start := by simp [lex, skipBefore, hs]
    have hne : start ≠ [] := by
      rintro rfl
      simp [lex, skipBefore, hs, tokenAt, Token.isReal] at h
    obtain ⟨-, gap, hgap, -, same⟩ := skipGap_takes hs hne
    exact ⟨gap, ⟨newline, same [')'] (.closer newline [] rfl)⟩, by rw [hstart, hgap]⟩

/-! ## Names -/

/-- A text that is a name from its front to its end. A name may be spelled with escapes. -/
def Spells (spelling : List Char) (id : String) : Prop :=
  ∃ escaped, name spelling = some ((id, escaped), [])

namespace Spells

variable {spelling : List Char} {id : String}

/-- Without escapes, a name is its spelling. -/
theorem toList_eq (h : Spells spelling id) (hb : '\\' ∉ spelling) : id.toList = spelling := by
  obtain ⟨escaped, hname⟩ := h
  obtain ⟨taken, htaken, -, hsame⟩ := name_spelled hname
  rw [List.append_nil] at htaken
  subst htaken
  exact hsame hb

theorem ne_nil (h : Spells spelling id) : spelling ≠ [] := by
  rintro rfl
  obtain ⟨escaped, hname⟩ := h
  cases hname

end Spells

/-- A name stands behind a gap. -/
theorem exists_spelling_of_identifier {m : Mode} {c c' : Cursor} {id : String}
    (ho : c.origin = .inside) (h : Parser.identifier m c = some (id, c')) :
    ∃ gap spelling, IsGapText gap ∧ Spells spelling id ∧ c.left = gap ++ (spelling ++ c'.left) ∧
      c'.origin = .inside := by
  obtain ⟨hid, rfl⟩ := Parser.identifier_eq_some.mp h
  obtain ⟨escaped, hword⟩ := Lexeme.identifier?_word hid
  have hreal : c.next.token.isReal = true := by rw [hword]; rfl
  obtain ⟨gap, hgap, hleft⟩ := Cursor.exists_gap ho hreal
  have htoken := Cursor.tokenAt_start hreal
  rw [hword] at htoken
  obtain ⟨_, _, -, -, hname⟩ := tokenAt_word htoken
  obtain ⟨spelling, hstart, same⟩ := name_scans _ _ _ hname
  have hspells := same [] (Shut.closed _ rfl)
  rw [List.append_nil] at hspells
  exact ⟨gap, spelling, hgap, ⟨escaped, hspells⟩, hstart ▸ hleft, rfl⟩

/-- A bracket or a comma stands behind a gap. -/
theorem exists_gap_of_bracket {c : Cursor} {s : Char} {p : Punctuator} (ho : c.origin = .inside)
    (hb : (s, p) ∈ brackets) (h : c.next.token = .punctuator p) :
    ∃ gap, IsGapText gap ∧ c.left = gap ++ s :: c.next.rest := by
  obtain ⟨gap, hgap, hleft⟩ := Cursor.exists_gap ho (by rw [h]; rfl)
  exact ⟨gap, hgap, by rw [hleft, Cursor.start_of_bracket hb h]⟩

/-! ## Lists -/

/-- A piece of a list of names. -/
inductive Piece where
  | name (spelling : List Char)
  | comma
  | gap (text : List Char)

/-- The text of a piece. -/
def Piece.text : Piece → List Char
  | .name spelling => spelling
  | .comma => [',']
  | .gap text => text

/-- The pieces of a list of names, up to the bracket behind it. A comma may stand behind the last
name. -/
inductive Laid : List String → List Piece → Prop
  | done {gap : List Char} (h : IsGapText gap) : Laid [] [.gap gap]
  | last {id : String} {front spelling back : List Char} (hfront : IsGapText front)
      (hname : Spells spelling id) (hback : IsGapText back) :
      Laid [id] [.gap front, .name spelling, .gap back]
  | more {id : String} {front spelling back : List Char} {names : List String}
      {pieces : List Piece} (hfront : IsGapText front) (hname : Spells spelling id)
      (hback : IsGapText back) (hrest : Laid names pieces) :
      Laid (id :: names) (.gap front :: .name spelling :: .gap back :: .comma :: pieces)

/-- The words of a list are those of its pieces: no word goes on from one to the next. -/
theorem Laid.words_eq {names : List String} {pieces : List Piece} (h : Laid names pieces) :
    words (pieces.flatMap Piece.text) = pieces.flatMap fun piece => words piece.text := by
  induction h with
  | done => simp [Piece.text]
  | last hfront _ hback =>
    simp [Piece.text, hfront.keepsApart.words_append, hback.keepsApart.append_words]
  | @more _ front spelling back _ pieces hfront _ hback _ ih =>
    have hcomma : isWordly ',' = false := by decide
    have htext :
        (.gap front :: .name spelling :: .gap back :: .comma :: pieces).flatMap Piece.text =
          front ++ ((spelling ++ back) ++ ',' :: pieces.flatMap Piece.text) := by
      simp [Piece.text]
    rw [htext, hfront.keepsApart.words_append, words_append_break hcomma,
      hback.keepsApart.append_words, ih]
    simp [Piece.text, words_of_break, hcomma]

section Reading

variable {fuel level : Nat} {m : Mode} {c c' : Cursor} {id : String}

theorem identifier_of_binding (h : (grammar fuel level).binding m c = some (.bind id, c')) :
    Parser.identifier m c = some (id, c') := by
  cases level with
  | zero => cases h
  | succ level =>
    have hbinding : (grammar fuel level).bindingTarget m c = some (.bind id, c') := h
    unfold Grammar.bindingTarget at hbinding
    by_cases hbracket : c.next.token = .punctuator .openBracket
    · rw [(Parser.accept_accepts _).bind_true hbracket] at hbinding
      obtain ⟨items, _, -, hbinding⟩ := Parser.bind_eq_some.mp hbinding
      cases (Parser.pure_eq_some.mp hbinding).1
    · rw [(Parser.accept_accepts _).bind_false hbracket] at hbinding
      by_cases hbrace : c.next.token = .punctuator .openBrace
      · rw [if_neg (by simp), (Parser.accept_accepts _).bind_true hbrace] at hbinding
        obtain ⟨items, _, -, hbinding⟩ := Parser.bind_eq_some.mp hbinding
        cases (Parser.pure_eq_some.mp hbinding).1
      · rw [if_neg (by simp), (Parser.accept_accepts _).bind_false hbrace] at hbinding
        obtain ⟨other, _, hid, hbinding⟩ := Parser.bind_eq_some.mp hbinding
        obtain ⟨hsame, rfl⟩ := Parser.pure_eq_some.mp hbinding
        obtain rfl := Pattern.bind.inj hsame
        exact hid

/-- A parameter that is a name is read as one. -/
theorem identifier_of_parameter (h : (grammar fuel level).parameter m c = some (.bind id, c')) :
    Parser.identifier m c = some (id, c') := by
  unfold Grammar.parameter at h
  rw [Parser.sees_bind, Parser.peek_bind] at h
  split at h
  · obtain ⟨pattern, _, hrest, h⟩ := Parser.bind_eq_some.mp h
    rw [Parser.sees_bind, Parser.peek_bind] at h
    obtain ⟨_, _, -, h⟩ := Parser.bind_eq_some.mp h
    obtain ⟨rfl, -⟩ := Parser.pure_eq_some.mp h
    obtain ⟨_, _, -, hrest⟩ := Parser.bind_eq_some.mp hrest
    obtain ⟨inner, _, -, hrest⟩ := Parser.bind_eq_some.mp hrest
    cases (Parser.pure_eq_some.mp hrest).1
  · obtain ⟨pattern, c₁, hbinding, hdefault⟩ := Parser.bind_eq_some.mp h
    unfold Grammar.withDefault at hdefault
    by_cases hassign : c₁.next.token = .punctuator .assign
    · rw [(Parser.accept_accepts _).bind_true hassign] at hdefault
      obtain ⟨value, _, -, hdefault⟩ := Parser.bind_eq_some.mp hdefault
      cases (Parser.pure_eq_some.mp hdefault).1
    · rw [(Parser.accept_accepts _).bind_false hassign] at hdefault
      obtain ⟨rfl, rfl⟩ := Parser.pure_eq_some.mp hdefault
      exact identifier_of_binding hbinding

/-- What is read as a list of names up to a parenthesis is laid out as one. -/
theorem exists_laid_of_listed {n : Nat} {before comma : Bool} {params : List Pattern}
    {names : List String} (ho : c.origin = .inside) (hnames : names.map .bind = params)
    (h : Listed .closeParen ((grammar fuel level).parameter m) n before c params comma c') :
    ∃ pieces, Laid names pieces ∧ c.left = pieces.flatMap Piece.text ++ ')' :: c'.left := by
  induction h generalizing names with
  | done h =>
    obtain rfl : names = [] := List.map_eq_nil_iff.mp hnames
    obtain ⟨gap, hgap, hleft⟩ := exists_gap_of_bracket (s := ')') ho (by simp [brackets]) h
    exact ⟨_, .done hgap, by simpa [Piece.text, Cursor.front] using hleft⟩
  | @more _ _ _ _ c₁ _ _ _ _ ha hc _ ih =>
    obtain ⟨id, names, rfl, rfl, rfl⟩ := List.map_eq_cons_iff.mp hnames
    obtain ⟨front, spelling, hfront, hname, hleft, ho₁⟩ :=
      exists_spelling_of_identifier ho (identifier_of_parameter ha)
    obtain ⟨back, hback, hleft₁⟩ := exists_gap_of_bracket (s := ',') ho₁ (by simp [brackets]) hc
    obtain ⟨pieces, hpieces, hleft₂⟩ := ih rfl rfl
    refine ⟨_, .more hfront hname hback hpieces, ?_⟩
    rw [hleft, hleft₁, show c₁.next.rest = _ from hleft₂]
    simp [Piece.text]
  | last _ ha _ hs =>
    obtain ⟨id, names, rfl, rfl, hnil⟩ := List.map_eq_cons_iff.mp hnames
    obtain rfl : names = [] := List.map_eq_nil_iff.mp hnil
    obtain ⟨front, spelling, hfront, hname, hleft, ho₁⟩ :=
      exists_spelling_of_identifier ho (identifier_of_parameter ha)
    obtain ⟨back, hback, hleft₁⟩ := exists_gap_of_bracket (s := ')') ho₁ (by simp [brackets]) hs
    refine ⟨_, .last hfront hname hback, ?_⟩
    simp [Piece.text, hleft, hleft₁, Cursor.front]

end Reading

end Collector.Script
