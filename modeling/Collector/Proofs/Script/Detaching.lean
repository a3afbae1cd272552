import Collector.Proofs.Script.Cover
import Collector.Proofs.Script.Cuts
import Collector.Proofs.Script.Texts

/-!
# Functions whose parameters are cut out

A plain function begins with its keyword and its name, and its parameter list comes next. When the
list is replaced by an empty one, whatever stands behind it, the script is read as before up to the
parenthesis: `exists_function_of_detached`.
-/

namespace Collector.Script

open Relation Grammar

/-- A function that is neither async nor a generator. -/
structure Function.IsPlain (f : Function) : Prop where
  isAsync : f.isAsync = false
  isGenerator : f.isGenerator = false

/-- A plain function of a name, without parameters. -/
structure Function.IsBare (f : Function) (name : String) : Prop where
  isPlain : f.IsPlain
  named : f.name = some name
  params : f.params = []
  paramsText : f.paramsText = "()"

/-! ## Statements one after another -/

section Runs

variable {g : Grammar} {m : Mode} {p q q' : Prefix × Cursor}

theorem reads_unique : Relator.RightUnique (g.Reads m) := by
  rintro p q q' ⟨-, x, hx, hq⟩ ⟨-, x', hx', hq'⟩
  obtain ⟨rfl, hc⟩ := Prod.mk.inj (Option.some.inj (hx.symm.trans hx'))
  exact Prod.ext (hq.trans hq'.symm) hc

/-- What has been read stays where it is. -/
theorem suffix_of_run (h : ReflTransGen (g.Reads m) p q) : p.1.1 <:+ q.1.1 := by
  induction h with
  | refl => exact List.suffix_rfl
  | tail _ hr ih =>
    obtain ⟨-, x, -, hq⟩ := hr
    rw [hq]
    exact ih.trans (List.suffix_cons _ _)

/-- An item was read in a step of its own. -/
theorem exists_step {pre post : List Item} {item : Item} (h : ReflTransGen (g.Reads m) p q)
    (hp : p.1.1 = []) (hq : q.1.1 = post ++ item :: pre) :
    ∃ r r', ReflTransGen (g.Reads m) p r ∧ g.Reads m r r' ∧ r.1.1 = pre ∧
      r'.1.1 = item :: pre := by
  induction h generalizing post with
  | refl => simp [hp] at hq
  | @tail r r' hrun hr ih =>
    obtain ⟨-, x, -, hstate⟩ := id hr
    have hitems : r'.1.1 = x.1 :: r.1.1 := by rw [hstate]
    cases post with
    | nil =>
      obtain ⟨-, hpre⟩ := List.cons.inj (hitems.symm.trans hq)
      exact ⟨r, r', hrun, hr, hpre, hq⟩
    | cons last post => exact ih (List.cons.inj (hitems.symm.trans hq)).2

/-- What is read up to the end of a body goes on from any place that is reached otherwise. -/
theorem exists_step_of_total (h : ReflTransGen (g.Reads m) p q) (he : endsBody q.2.next = false)
    (h' : ReflTransGen (g.Reads m) p q') (he' : endsBody q'.2.next = true) :
    ∃ r, g.Reads m q r ∧ r.1.1 <:+ q'.1.1 := by
  rcases ReflTransGen.total_of_right_unique reads_unique h h' with hrun | hrun
  · rcases ReflTransGen.cases_head hrun with rfl | ⟨r, hr, hrest⟩
    · cases he.symm.trans he'
    · exact ⟨r, hr, suffix_of_run hrest⟩
  · rcases ReflTransGen.cases_head hrun with rfl | ⟨r, ⟨hr, -⟩, -⟩
    · cases he.symm.trans he'
    · cases hr.symm.trans he'

end Runs

/-- Statements before a seam are read on both sides. -/
theorem run_moved {fuel level : Nat} {m : Mode} {σ : Seam} {p q : Prefix × Cursor}
    (h : ReflTransGen ((grammar fuel level).Reads m) p q) (hq : σ.Passed q.2) :
    ∀ᶠ g in large, ReflTransGen (g.Reads m) (p.1, σ.moved p.2) (q.1, σ.moved q.2) := by
  refine eventually_large.mpr ⟨fuel, level, fun fuel' level' hf hl => ?_⟩
  induction h with
  | refl => exact .refl
  | @tail r q _ hr ih =>
    obtain ⟨hc, x, hx, hstate⟩ := hr
    have item : Leads σ never _ _ := (agrees_grammar hf hl).item m false .never r.1.2
    rw [Mode.widen_false] at item
    have hr := hq.of_moves (item.moves hx)
    refine (ih hr).tail ⟨?_, x, item.keeps hx (.of_passed hq), hstate⟩
    rw [hr.next]
    exact hc

theorem itemOf_lead (prologue : Bool) (c : Cursor) (s : Statement) (c' : Cursor) :
    (itemOf prologue c s c').1.lead = slice c.left c.next.start := by
  unfold itemOf
  dsimp only
  split <;> rfl

/-- A word begins no directive. -/
theorem itemOf_of_word {prologue : Bool} {c c' : Cursor} {s : Statement} {id : String}
    {escaped : Bool} (h : c.next.token = .word id escaped) :
    (itemOf prologue c s c').1.statement = s := by
  unfold itemOf
  rw [h]

/-! ## Heads and empty parameter lists -/

section Heads

variable {g : Grammar} {m : Mode} {c c' behind : Cursor} {name : String} {f : Function}

theorem Grammar.Heads.move (h : Heads c name behind) :
    Move c (.front .inside c.next.rest) ∧ Move (.front .inside c.next.rest) behind := by
  obtain ⟨hkeyword, ⟨escaped, hname⟩, rfl⟩ := h
  exact ⟨.next (by rw [hkeyword]; rfl), .next (by rw [hname]; rfl)⟩

/-- A head in front of a seam is one on both sides. -/
theorem Grammar.Heads.moved {σ : Seam} (h : Heads c name behind) (hp : σ.Passed behind) :
    Heads (σ.moved c) name (σ.moved behind) := by
  obtain ⟨hfirst, hsecond⟩ := h.move
  obtain ⟨hkeyword, ⟨escaped, hname⟩, rfl⟩ := h
  have hname' := hp.of_move hsecond
  have hc := hname'.of_move hfirst
  have hnext : σ.moved (.front .inside c.next.rest) =
      .front .inside (σ.moved c).next.rest := by
    rw [hc.next]
    rfl
  refine ⟨by rw [hc.next]; exact hkeyword, ⟨escaped, ?_⟩, ?_⟩
  · rw [← hnext, hname'.next]
    exact hname
  · rw [← hnext, hname'.next]
    rfl

/-- Nothing stands between two parentheses. -/
theorem parameters_empty {params : List Pattern} {text : String} {rest : List Char}
    (h : g.parameters m c = some ((params, text), c')) (hrest : c.next.rest = ')' :: rest) :
    params = [] ∧ text = "()" := by
  obtain ⟨hopen, rfl, _, -, _, hl⟩ := parameters_iff_listed.mp h
  have hclose : (Cursor.front .inside (')' :: rest)).next =
      ⟨.punctuator .closeParen, false, ')' :: rest, rest⟩ := next_of_bracket (by decide) rest
  rw [hrest] at hl
  rw [Cursor.start_of_bracket (c := '(') (by decide) hopen, hrest]
  cases hl with
  | done =>
    rw [hclose]
    exact ⟨rfl, slice_append ['(', ')'] rest⟩
  | more hne => simp [hclose] at hne
  | last hne => simp [hclose] at hne

/-- Behind the parenthesis of a plain function lies a seam. If the list closes there, what is read
from the keyword on is a plain function of the same name without parameters. -/
theorem exists_seam_in_parens {fuel level : Nat}
    (h : (grammar fuel level).function m true c = some (f, c')) (hf : f.IsPlain)
    (hname : f.name = some name) (rest : List Char) :
    ∃ σ : Seam, σ.Passed c ∧ σ.new = ')' :: rest ∧ c.next.start = f.head.toList ++ '(' :: σ.old ∧
      (σ.moved c).next.token = .word "function" false ∧
      ∀ {g : Grammar} {s : Statement} {d' : Cursor},
        g.anyStatement m true (σ.moved c) = some (s, d') →
          ∃ d, s = .function d ∧ d.IsBare name := by
  obtain ⟨behind, hheads⟩ := exists_heads h hf.isAsync hf.isGenerator hname
  obtain ⟨hfirst, hsecond⟩ := hheads.move
  obtain ⟨params, text, c₁, body, hparams, -, rfl⟩ :=
    functionRest_eq_some.mp ((hheads.function_iff true).mp h).2
  have hopen := (parameters_iff_listed.mp hparams).1
  have hstart := Cursor.start_of_bracket (c := '(') (by decide) hopen
  let σ := Seam.behind (.front .inside behind.next.rest) .paren rest
  have hok : σ.Ok (fun _ => True) (.front .inside behind.next.rest) :=
    .inr ⟨Seam.behind_atSeam rfl .paren rest, trivial⟩
  have hpassed : σ.Passed behind := Seam.passed_of_move (.next (by rw [hopen]; rfl)) hok
  have hc := (hpassed.of_move hsecond).of_move hfirst
  have hmoved := hheads.moved hpassed
  refine ⟨σ, hc, rfl, ?_, hmoved.keyword, fun hs => ?_⟩
  · have hsuffix : behind.next.start <:+ c.next.start :=
      behind.start_suffix.trans (suffix_of_moves_taken (.head hfirst (.single hsecond)))
    show _ = (slice c.next.start behind.next.start).toList ++ '(' :: behind.next.rest
    rw [← hstart, toList_slice hsuffix]
  · obtain ⟨-, d, rfl, hd⟩ := hmoved.anyStatement_iff.mp hs
    obtain ⟨params', text', _, _, hparams', -, rfl⟩ := functionRest_eq_some.mp hd
    have hrest : (σ.moved behind).next.rest = ')' :: rest := by
      rw [hpassed.next]
      exact σ.shift_old
    obtain ⟨hnone, hempty⟩ := parameters_empty hparams' hrest
    exact ⟨_, rfl, ⟨rfl, rfl⟩, rfl, hnone, hempty⟩

end Heads

/-! ## Scripts -/

/-- In the place of the parameters of a plain function there may stand an empty list, and whatever
can be read behind it. A plain function of the same name stands in the same place then, behind the
statements that stood before it. -/
theorem exists_function_of_detached {source text : String} {body body' : Body}
    {pre post : List Item} {item : Item} {f : Function} {rest : List Char}
    (hbody : parseScript? source = some body) (hitems : body.items = pre ++ item :: post)
    (hitem : item.statement = .function f) (hf : f.IsPlain)
    (htext : text.toList =
      (String.join (pre.map Item.source) ++ item.lead ++ f.head ++ "()").toList ++ rest)
    (hbody' : parseScript? text = some body') :
    ∃ item' post' d name, body'.items = pre ++ item' :: post' ∧ item'.statement = .function d ∧
      f.name = some name ∧ d.IsBare name := by
  obtain ⟨_, hread, -, -⟩ := parseScript?_eq_some hbody
  obtain ⟨_, hread', -, -⟩ := parseScript?_eq_some hbody'
  obtain ⟨q, hrun, rfl, -, rfl⟩ := reads_of_body hread
  obtain ⟨q', hrun', rfl, hend, rfl⟩ := reads_of_body hread'
  -- Where the function begins, the old script has read the items before it.
  have hstack : q.1.1 = post.reverse ++ item :: pre.reverse := by
    rw [← List.reverse_reverse q.1.1, show q.1.1.reverse = pre ++ item :: post from hitems]
    simp
  obtain ⟨r, r', hbefore, ⟨-, x, hx, hstate⟩, hpre, hr'⟩ := exists_step hrun rfl hstack
  have hitem' : x.1 = item := by
    rw [hstate] at hr'
    exact (List.cons.inj hr').1
  obtain ⟨-, hnamed, level, hfunction⟩ := function_of_item (p := r) (q := r') hx (hitem' ▸ hitem)
  obtain ⟨name, hname⟩ := Option.isSome_iff_exists.mp hnamed
  obtain ⟨σ, hpassed, hnew, hstart, hkeyword, hfunctions⟩ :=
    exists_seam_in_parens hfunction hf hname rest
  -- The new text is the old one on the other side of the seam.
  have hlead : item.lead = slice r.2.left r.2.next.start := by
    obtain ⟨s, -, hs⟩ := item_eq_some.mp hx
    rw [← hitem', hs, itemOf_lead]
  have hsource : source.toList =
      (String.join (pre.map Item.source) ++ item.lead ++ f.head ++ "(").toList ++ σ.old := by
    have htextAt := textAt_of_run hbefore
    unfold textAt at htextAt
    rw [hpre, List.reverse_reverse, ← toList_slice r.2.start_suffix, ← hlead, hstart] at htextAt
    simpa [String.join, Cursor.front] using htextAt.symm
  have hmoved : σ.moved (.front .script source.toList) = .front .script text.toList := by
    show Cursor.front .script (σ.shift source.toList) = _
    rw [hsource, σ.shift_append, htext, hnew]
    simp
  -- So the new script reads the items before the function too, and then a function.
  have hlifted := run_moved hbefore hpassed
  rw [hmoved] at hlifted
  obtain ⟨_, ⟨hbefore', hrun'⟩, g, fuel, -, -, rfl⟩ := ((hlifted.and (run_lift hrun')).and
    (eventually_above (Filter.Eventually.of_forall fun _ => trivial) 0)).exists
  have hcontinues : endsBody (σ.moved r.2).next = false := by
    simp [endsBody, Lexeme.is, hkeyword]
  obtain ⟨t, ⟨-, y, hy, ht⟩, behind, hbehind⟩ :=
    exists_step_of_total hbefore' hcontinues hrun' hend
  obtain ⟨s, hs, rfl⟩ := item_eq_some.mp hy
  obtain ⟨d, rfl, hd⟩ := hfunctions (g := g) hs
  let item' := (itemOf r.1.2 (σ.moved r.2) (.function d) t.2).1
  have hitems' : q'.1.1.reverse = pre ++ item' :: behind.reverse := by
    have hlast : t.1.1 = item' :: pre.reverse := by rw [ht, ← hpre]
    rw [← hbehind, hlast]
    simp
  exact ⟨item', behind.reverse, d, name, hitems', itemOf_of_word hkeyword, hname, hd⟩

end Collector.Script
