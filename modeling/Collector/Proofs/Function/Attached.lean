import Collector.Function.Compression
import Collector.Proofs.Function.Cutting
import Collector.Proofs.Script.Blanks
import Collector.Proofs.Script.Detaching
import Collector.Proofs.Script.Rereading

/-!
# Parameters that are put back

Whatever makes a function smaller sees it without its parameters. Their names are put before the body
that comes out, and the text that this gives is read as a function again.

* `names_of_parameters`: what plain parameters are called can be written down as it is.
* `readsParameters_names`: a list of names is read as parameters.
* `exists_function_of_prune`: a function is still read without its parameters, and again behind the
  cut of its dead helpers.
* `compress_reattaches` is the result.
-/

namespace Collector

open Script Relation Grammar Text

/-! ## Plain parameters -/

/-- A parameter that is a plain name, perhaps with a default. -/
inductive BindsName : Pattern → String → Prop
  | plain (id : String) : BindsName (.bind id) id
  | default (id : String) (value : Expr) : BindsName (.withValue (.bind id) value) id

theorem bindsName_of_plainName? {p : Pattern} {id : String} (h : plainName? p = some id) :
    BindsName p id := by
  unfold plainName? at h
  split at h
  · cases h
    exact .plain id
  · cases h
    exact .default id _
  · cases h

theorem bindsNames_of_boundNames {f : Function} {names : List String}
    (h : boundNames f = .ok names) : List.Forall₂ BindsName f.params names := by
  unfold boundNames at h
  split at h
  · cases h
  · split at h
    next found hfound =>
      obtain rfl := Except.ok.inj h
      clear h
      generalize f.params = params at hfound
      induction params generalizing found with
      | nil =>
        obtain rfl := Option.some.inj hfound
        exact .nil
      | cons p params ih =>
        rw [List.mapM_cons] at hfound
        obtain ⟨id, hid, hfound⟩ := Option.bind_eq_some_iff.mp hfound
        obtain ⟨rest, hrest, hfound⟩ := Option.bind_eq_some_iff.mp hfound
        obtain rfl := Option.some.inj hfound
        exact .cons (bindsName_of_plainName? hid) (ih rest hrest)
    · cases h

/-- A word that is a name in a function that is neither async nor a generator. -/
structure IsName (id : String) : Prop where
  word : IsWord id
  free : reservedWords.contains id = false

section Names

variable {fuel level : Nat} {m : Mode} {c c' : Cursor}

open Parser.Answers

theorem answers_identifier : (Parser.identifier m).Answers IsName := by
  intro c id c' h
  obtain ⟨hid, -⟩ := Parser.identifier_eq_some.mp h
  obtain ⟨escaped, hword⟩ := Lexeme.identifier?_word hid
  rw [Lexeme.identifier?, hword] at hid
  dsimp only at hid
  split at hid
  next hallows =>
    simp only [Mode.allows, Bool.and_eq_true, Bool.not_eq_true'] at hallows
    exact ⟨Cursor.isWord hword, hallows.1.1⟩
  · cases hid

theorem answers_binding :
    ((grammar fuel level).binding m).Answers fun p => ∀ id, BindsName p id → IsName id := by
  cases level with
  | zero => exact fun _ _ _ h => nomatch h
  | succ level =>
    show ((grammar fuel level).bindingTarget m).Answers _
    unfold bindingTarget
    refine .last fun _ => .ite (.last fun _ => .pure nofun) (.last fun _ => .ite ?_ ?_)
    · exact .last fun _ => .pure nofun
    · refine answers_identifier.bind fun id hid => .pure fun other hother => ?_
      cases hother
      exact hid

/-- What a parameter binds is a name. -/
theorem answers_parameter :
    ((grammar fuel level).parameter m).Answers fun p => ∀ id, BindsName p id → IsName id := by
  have rest : ((grammar fuel level).bindingRest m).Answers fun p => ∃ q, p = .rest q :=
    .last fun _ => .last fun q => .pure ⟨q, rfl⟩
  unfold parameter
  refine .last fun _ => .ite (rest.bind fun p hp => .last fun _ => .last fun _ => .pure ?_) ?_
  · obtain ⟨q, rfl⟩ := hp
    exact nofun
  · refine answers_binding.bind fun p hp => .last fun _ => .ite (.last fun value => .pure ?_) ?_
    · intro id hid
      cases hid
      exact hp id (.plain id)
    · exact .pure hp

theorem names_of_listed {stop : Punctuator} {n : Nat} {before comma : Bool} {params : List Pattern}
    {names : List String}
    (h : Listed stop ((grammar fuel level).parameter m) n before c params comma c')
    (hnames : List.Forall₂ BindsName params names) : ∀ id ∈ names, IsName id := by
  induction h generalizing names with
  | done =>
    cases hnames
    nofun
  | more _ hp _ _ ih =>
    cases hnames with
    | cons hid hrest => exact List.forall_mem_cons.mpr ⟨answers_parameter _ _ _ hp _ hid, ih hrest⟩
  | last _ hp =>
    cases hnames with
    | cons hid hrest =>
      cases hrest
      exact List.forall_mem_cons.mpr ⟨answers_parameter _ _ _ hp _ hid, nofun⟩

/-- What the parameters of a list bind are names. -/
theorem names_of_parameters {params : List Pattern} {text : String} {names : List String}
    (h : (grammar fuel level).parameters m c = some ((params, text), c'))
    (hnames : List.Forall₂ BindsName params names) : ∀ id ∈ names, IsName id := by
  obtain ⟨-, -, _, -, _, hl⟩ := parameters_iff_listed.mp h
  exact names_of_listed hl hnames

end Names

/-! ## Lists of names -/

theorem identifier_of_isName {id : String} (h : IsName id) {text : List Char}
    (ht : text.head?.any (fun c => isIdentifierPart c || c == '\\') = false) :
    Parser.identifier Mode.plain (.front .inside (id.toList ++ text)) =
      some (id, .front .inside text) := by
  have hnext : (Cursor.front .inside (id.toList ++ text)).next = _ := h.word.lex_eq ht
  refine Parser.identifier_eq_some.mpr ⟨?_, by rw [hnext]⟩
  rw [hnext, Lexeme.identifier?]
  exact if_pos (Mode.allows_of_free h.free rfl rfl)

/-- Names with commas between them are read as parameters, up to the parenthesis. -/
theorem listed_names {names : List String} (h : ∀ id ∈ names, IsName id) (hne : names ≠ [])
    (g : Grammar) (n : Nat) (before : Bool) (rest : List Char) :
    Listed .closeParen ((g.above n).parameter Mode.plain) names.length before
      (.front .inside ((",".intercalate names).toList ++ ')' :: rest)) (names.map .bind) false
      (.front .inside rest) := by
  have hclose : (Cursor.front .inside (')' :: rest)).next =
      ⟨.punctuator .closeParen, false, ')' :: rest, rest⟩ := next_of_bracket (by decide) rest
  have hword {id : String} {text : List Char} (hid : IsName id)
      (ht : text.head?.any (fun c => isIdentifierPart c || c == '\\') = false) :
      (Cursor.front .inside (id.toList ++ text)).next.token ≠ .punctuator .closeParen := by
    have hnext : (Cursor.front .inside (id.toList ++ text)).next = _ := hid.word.lex_eq ht
    simp [hnext]
  induction names generalizing before with
  | nil => exact (hne rfl).elim
  | cons id names ih =>
    obtain ⟨hid, hnames⟩ := List.forall_mem_cons.mp h
    cases names with
    | nil =>
      have hidentifier : Parser.identifier Mode.plain (.front .inside (id.toList ++ ')' :: rest)) =
          some (id, .front .inside (')' :: rest)) := identifier_of_isName hid rfl
      have hp : (g.above n).parameter Mode.plain (.front .inside (id.toList ++ ')' :: rest)) = _ :=
        parameter_of_identifier n hidentifier (by simp [hclose])
      have hl : Listed .closeParen ((g.above n).parameter Mode.plain) 1 before _ [.bind id] false _ :=
        .last (hword hid rfl) hp (by simp [hclose]) (by simp [hclose])
      rw [hclose] at hl
      exact hl
    | cons other names =>
      let more := (",".intercalate (other :: names)).toList ++ ')' :: rest
      have hcomma : (Cursor.front .inside (',' :: more)).next =
          ⟨.punctuator .comma, false, ',' :: more, more⟩ := next_of_bracket (by decide) more
      have htext : (",".intercalate (id :: other :: names)).toList ++ ')' :: rest =
          id.toList ++ ',' :: more := by
        rw [String.intercalate_cons_cons]
        simp [more]
      have hidentifier : Parser.identifier Mode.plain (.front .inside (id.toList ++ ',' :: more)) =
          some (id, .front .inside (',' :: more)) := identifier_of_isName hid rfl
      have hp : (g.above n).parameter Mode.plain (.front .inside (id.toList ++ ',' :: more)) = _ :=
        parameter_of_identifier n hidentifier (by simp [hcomma])
      rw [htext]
      refine .more (hword hid rfl) hp (by simp [hcomma]) ?_
      rw [hcomma]
      exact ih hnames (by simp) true

/-- Names in parentheses are a parameter list. -/
theorem readsParameters_names {names : List String} (h : ∀ id ∈ names, IsName id) :
    ReadsParameters (names.map .bind) ("(" ++ ",".intercalate names ++ ")") := by
  intro rest
  have hclose : (Cursor.front .inside (')' :: rest)).next =
      ⟨.punctuator .closeParen, false, ')' :: rest, rest⟩ := next_of_bracket (by decide) rest
  have htext : ("(" ++ ",".intercalate names ++ ")").toList ++ rest =
      '(' :: ((",".intercalate names).toList ++ ')' :: rest) := by
    simp
  have hopen : (Cursor.front .inside
      ('(' :: ((",".intercalate names).toList ++ ')' :: rest))).next = _ :=
    next_of_bracket (p := .openParen) (by decide) _
  filter_upwards [eventually_above (Filter.Eventually.of_forall fun _ => trivial)
    (names.length + 1)]
  rintro _ ⟨g, fuel, -, hfuel, rfl⟩
  obtain ⟨k, hk, comma, hl⟩ : ∃ k ≤ fuel, ∃ comma,
      Listed .closeParen ((g.above fuel).parameter Mode.plain) k false
        (.front .inside ((",".intercalate names).toList ++ ')' :: rest)) (names.map .bind) comma
        (.front .inside rest) := by
    by_cases hne : names = []
    · subst hne
      have hl : Listed .closeParen ((g.above fuel).parameter Mode.plain) 1 false
          (.front .inside (')' :: rest)) [] false _ := .done (by rw [hclose])
      rw [hclose] at hl
      exact ⟨1, by omega, false, hl⟩
    · exact ⟨names.length, by omega, false, listed_names h hne g fuel false rest⟩
  rw [htext, parameters_iff_listed, hopen]
  refine ⟨rfl, ?_, k, hk, comma, hl⟩
  rw [← htext]
  exact (slice_append _ _).symm ▸ (String.ofList_toList).symm

/-! ## Functions that are put together -/

/-- The name of a plain function that is declared. -/
theorem isName_of_function {fuel level : Nat} {m : Mode} {c c' : Cursor} {f : Function}
    {name : String} (h : (grammar fuel level).function m true c = some (f, c')) (hf : f.IsPlain)
    (hname : f.name = some name) : IsName name := by
  obtain ⟨behind, hheads⟩ := exists_heads h hf.isAsync hf.isGenerator hname
  obtain ⟨escaped, hword⟩ := hheads.name
  obtain ⟨hallows, -⟩ := (hheads.function_iff true).mp h
  simp only [if_true, Mode.allows, Bool.and_eq_true, Bool.not_eq_true'] at hallows
  exact ⟨Cursor.isWord hword, hallows.1.1⟩

/-- Names in front of a body that can be read anywhere make a declaration. -/
theorem parse_attached {name : String} {params : List String} {body : Body} (hname : IsName name)
    (hparams : ∀ id ∈ params, IsName id) (hbody : ReadsBody body)
    (hpending : body.tree.isPending = false) :
    ∃ d : Function, d.name = some name ∧ d.params = params.map .bind ∧ d.body = body ∧
      d.IsPlain ∧ parseScript? (attached name params body.source) =
        some ⟨[⟨"", attached name params body.source, .function d⟩], ""⟩ := by
  let d : Function := ⟨false, false, some name, "function " ++ name, params.map .bind,
    "(" ++ ",".intercalate params ++ ")", "", body.items, body.tail⟩
  have hportable : d.Portable name :=
    ⟨rfl, rfl, rfl, rfl, rfl, hname.word, hname.free, ⟨(",".intercalate params).toList, by simp [d]⟩,
      readsParameters_names hparams, hbody⟩
  have hsource : d.source = attached name params body.source := by
    have hclose : ")\x7b" = ")" ++ "\x7b" := by decide
    have hattached : attached name params body.source = "function " ++ name ++ "(" ++
        ",".intercalate params ++ ")\x7b" ++ body.source ++ "\x7d" := rfl
    rw [hattached, hclose]
    simp only [d, Function.source, Function.body, Body.block, String.append_assoc,
      String.empty_append]
  have hbinds : (patternTrees (params.map .bind)).any Tree.isPending = false := by
    clear hparams hportable hsource
    induction params with
    | nil => rfl
    | cons id params ih =>
      rw [List.map_cons, patternTrees, List.any_cons, ih, Bool.or_false]
      rfl
  have hdpending : d.tree.isPending = false := by
    rw [isPending_body] at hpending
    rw [isPending_function, Bool.or_eq_false_iff]
    exact ⟨hbinds, hpending⟩
  refine ⟨d, rfl, rfl, rfl, ⟨rfl, rfl⟩, ?_⟩
  rw [← hsource]
  exact hportable.declaresOnly.parseScript?_eq hdpending

/-! ## Functions without their parameters -/

/-- If the only function of a script is plain and loses its parameters, and whatever else behind
its name, then the first statement of what is left is a plain function of its name without
parameters. -/
theorem exists_function_of_mapFunctions {source text : String} {body body' : Body} {f : Function}
    {change : Function → String} {more : String} (hbody : parseScript? source = some body)
    (hsole : soleFunction body = .ok f) (hf : f.IsPlain)
    (hchange : change f = f.head ++ "()" ++ more) (htext : body.mapFunctions change = text)
    (hbody' : parseScript? text = some body') :
    ∃ d name others, body'.statements = .function d :: others ∧ f.name = some name ∧
      d.IsBare name := by
  obtain ⟨pre, item, post, hitems, hitem, hdirectives⟩ := exists_sole (soleFunction_eq_ok hsole)
  rw [mapFunctions_eq hitems hitem hdirectives, hchange] at htext
  have hfront : text.toList =
      (String.join (pre.map Item.source) ++ item.lead ++ f.head ++ "()").toList ++
        (more ++ String.join (post.map Item.source) ++ body.tail).toList := by
    rw [← htext]
    simp
  obtain ⟨item', post', d, name, hitems', hitem', hd⟩ :=
    exists_function_of_detached hbody hitems hitem hf hfront hbody'
  have hpre : (pre.map Item.statement).filter (fun s => !s.isDirective) = [] := by
    rw [List.filter_eq_nil_iff]
    intro s hs
    obtain ⟨other, hother, rfl⟩ := List.mem_map.mp hs
    simp [hdirectives other (List.mem_append_left _ hother)]
  refine ⟨d, name, (post'.map Item.statement).filter fun s => !s.isDirective, ?_, hd⟩
  unfold Body.statements
  rw [hitems', List.map_append, List.filter_append, hpre, List.map_cons, hitem']
  rfl

/-- The text that is left of a plain function without its parameters is that of one function, plain
and of the same name, if its dead helpers can be cut out. Behind that cut the text begins with such a
function again. -/
theorem exists_function_of_prune {source pruned : String} {body body' : Body} {f : Function}
    (hbody : parseScript? source = some body) (hsole : soleFunction body = .ok f) (hf : f.IsPlain)
    (hprune : prune (body.mapFunctions Function.detachedSource) = .ok pruned)
    (hbody' : parseScript? pruned = some body') :
    ∃ detached e d name others,
      parseScript? (body.mapFunctions Function.detachedSource) = some detached ∧
      soleFunction detached = .ok e ∧ e.IsBare name ∧
      body'.statements = .function d :: others ∧ d.IsBare name ∧ f.name = some name := by
  unfold prune at hprune
  split at hprune
  · cases hprune
  next detached hdetached =>
    obtain ⟨e, he, hprune⟩ := Outcome.bind_eq_ok.mp hprune
    have hpruned := Except.ok.inj hprune
    have hempties : f.detachedSource = f.head ++ "()" ++ (f.gap ++ "\x7b" ++ f.body.source ++ "\x7d") := by
      simp only [Function.detachedSource, String.append_assoc]
    obtain ⟨e', name, others, hstatements, hname, hbare⟩ :=
      exists_function_of_mapFunctions hbody hsole hf hempties rfl hdetached
    obtain rfl : e = e' := by
      rw [soleFunction_eq_ok he] at hstatements
      exact Statement.function.inj (List.cons.inj hstatements).1
    have hempties' : e.prunedSource = e.head ++ "()" ++
        (e.gap ++ "\x7b" ++ e.body.keptSource (liveNames e.body.statements) ++ "\x7d") := by
      simp only [Function.prunedSource, hbare.paramsText, String.append_assoc]
    obtain ⟨d, name', others', hstatements', hname', hbare'⟩ :=
      exists_function_of_mapFunctions hdetached he hbare.isPlain hempties' hpruned hbody'
    obtain rfl := Option.some.inj (hbare.named.symm.trans hname')
    exact ⟨detached, e, d, name, others', hdetached, he, hbare, hstatements', hbare', hname⟩

/-! ## Minifiers -/

/-- A function that a minifier gives on its own is plain if one of its name was given to it. -/
def KeepsPlain (minify : Minifier) : Prop :=
  ∀ {text minified : String} {body body' : Body} {f g : Function},
    parseScript? text = some body → minify text = .ok minified →
    parseScript? minified = some body' → .function f ∈ body.statements →
    body'.statements.filterMap Statement.function? = [g] → g.name = f.name → f.IsPlain → g.IsPlain

theorem artifact_eq_ok {source : String} {artifact : Artifact}
    (h : Artifact.ofSource source = .ok artifact) : ∃ body g, parseScript? source = some body ∧
      body.statements.filterMap Statement.function? = [g] ∧
      artifact = ⟨g.name.getD "", g.body.source⟩ := by
  unfold Artifact.ofSource at h
  split at h
  · cases h
  next body hbody =>
    split at h
    next g hg => exact ⟨body, g, hbody, hg, (Except.ok.inj h).symm⟩
    · cases h

theorem detach_eq_ok {source : String} {detached : Detached} (h : detach source = .ok detached) :
    ∃ body f names, parseScript? source = some body ∧ soleFunction body = .ok f ∧
      boundNames f = .ok names ∧
      detached = ⟨f.name.getD "", names, body.mapFunctions Function.detachedSource⟩ := by
  unfold detach at h
  split at h
  · cases h
  next body hbody =>
    obtain ⟨f, hsole, h⟩ := Outcome.bind_eq_ok.mp h
    obtain ⟨names, hnames, h⟩ := Outcome.bind_eq_ok.mp h
    exact ⟨body, f, names, hbody, hsole, hnames, (Except.ok.inj h).symm⟩

/-- What a compression went through that succeeded. -/
theorem Detached.compress_eq_ok {minify : Minifier} {detached : Detached} {output : String}
    (h : detached.compress minify = .ok output) : ∃ pruned minified body small g,
      prune detached.source = .ok pruned ∧ parseScript? pruned = some body ∧
      minify pruned = .ok minified ∧ parseScript? minified = some small ∧
      small.statements.filterMap Statement.function? = [g] ∧ g.name.getD "" = detached.name ∧
      output = attached detached.name detached.params g.body.source := by
  unfold Detached.compress at h
  obtain ⟨pruned, hpruned, h⟩ := Outcome.bind_eq_ok.mp h
  obtain ⟨minified, hminified, h⟩ := Outcome.bind_eq_ok.mp h
  obtain ⟨artifact, hartifact, h⟩ := Outcome.bind_eq_ok.mp h
  obtain ⟨small, g, hsmall, hg, rfl⟩ := artifact_eq_ok hartifact
  unfold Minifier.apply at hminified
  split at hminified
  next hparses =>
    obtain ⟨body, hbody⟩ := Option.isSome_iff_exists.mp hparses
    split at h
    next hname =>
      refine ⟨pruned, minified, body, small, g, hpruned, hbody, hminified, hsmall, hg,
        by simpa using hname, ?_⟩
      rw [← Except.ok.inj h]
      dsimp only at hname ⊢
      rw [beq_iff_eq.mp hname]
    · cases h
  · cases hminified

section Statements

variable {source : String} {body : Body} {g : Function}

/-- A function that is declared in a script was read there, and has a name. -/
theorem exists_function_of_statement (hbody : parseScript? source = some body)
    (hg : .function g ∈ body.statements) : g.name.isSome = true ∧
      ∃ fuel level c c', (grammar fuel level).function Mode.script true c = some (g, c') := by
  obtain ⟨e, hread, -, -⟩ := parseScript?_eq_some hbody
  obtain ⟨item, hitem, hstatement⟩ := List.mem_map.mp (List.mem_filter.mp hg).1
  obtain ⟨-, hname, level, c, c', hfunction⟩ := function_of_body hread hitem hstatement
  exact ⟨hname, _, level, c, c', hfunction⟩

/-- If it is plain, its body is read the same elsewhere. -/
theorem readsBody_of_statement (hbody : parseScript? source = some body)
    (hg : .function g ∈ body.statements) (hplain : g.IsPlain) :
    ReadsBody g.body ∧ g.body.tree.isPending = false := by
  obtain ⟨-, _, _, _, _, hfunction⟩ := exists_function_of_statement hbody hg
  obtain ⟨_, _, _, _, -, hrest⟩ := functionRest_of_function hfunction
  obtain ⟨-, -, -, hpending⟩ := parseScript?_eq_some hbody
  refine ⟨?_, ?_⟩
  · cases (written_of_functionRest hrest hplain.isAsync hplain.isGenerator).body with
    | block h => exact h
  · rw [isPending_body, List.any_eq_false] at hpending
    have htree : g.tree.isPending = false :=
      Bool.eq_false_iff.mpr (hpending _ (List.mem_filter.mp hg).1)
    rw [isPending_function, Bool.or_eq_false_iff] at htree
    rw [isPending_body]
    exact htree.2

/-- What it binds are names, and so is what it is called if it is plain. -/
theorem isName_of_statement (hbody : parseScript? source = some body)
    (hg : .function g ∈ body.statements) :
    (∀ names, List.Forall₂ BindsName g.params names → ∀ id ∈ names, IsName id) ∧
      ∀ name, g.IsPlain → g.name = some name → IsName name := by
  obtain ⟨-, _, _, _, _, hfunction⟩ := exists_function_of_statement hbody hg
  obtain ⟨_, _, _, _, -, hrest⟩ := functionRest_of_function hfunction
  refine ⟨fun names hnames => ?_, fun name => isName_of_function hfunction⟩
  obtain ⟨_, _, _, _, hparams, -, rfl⟩ := functionRest_eq_some.mp hrest
  exact names_of_parameters hparams hnames

end Statements

/-- Whatever minifier makes a function smaller that is neither async nor a generator, the text that
comes out declares that function: its parameters were plain names, perhaps with defaults, and are
names in the same order without defaults, and its body is the one that the minifier gave for the
pruned function without parameters. Which names a collector binds makes no difference.

The text that is pruned is that of one function of the same name without parameters, and the text
that the minifier is given begins with such a function. It need not be the only statement any more:
where a cut joins what stood around a declaration, the text may be read otherwise. -/
theorem compress_reattaches {minify : Minifier} {reserved : List String} {source output : String}
    (hminify : KeepsPlain minify)
    (hplain : ∀ body f, parseScript? source = some body → soleFunction body = .ok f → f.IsPlain)
    (h : (compressWith minify reserved source).outcome = .ok output) :
    ∃ (body detached kept small : Body) (f e k g d : Function) (name : String)
        (names : List String) (pruned minified : String) (others : List Statement),
      parseScript? source = some body ∧ soleFunction body = .ok f ∧ f.name = some name ∧
      List.Forall₂ BindsName f.params names ∧
      parseScript? (body.mapFunctions Function.detachedSource) = some detached ∧
      soleFunction detached = .ok e ∧ e.IsBare name ∧
      prune (body.mapFunctions Function.detachedSource) = .ok pruned ∧
      parseScript? pruned = some kept ∧ kept.statements = .function k :: others ∧ k.IsBare name ∧
      minify pruned = .ok minified ∧ parseScript? minified = some small ∧
      small.statements.filterMap Statement.function? = [g] ∧
      parseScript? output = some ⟨[⟨"", output, .function d⟩], ""⟩ ∧ d.IsPlain ∧
      d.name = some name ∧ d.params = names.map .bind ∧ d.body.source = g.body.source ∧
      ∀ others, (compressWith minify others source).outcome = .ok output := by
  have hany (others : List String) : (compressWith minify others source).outcome =
      (compressWith minify reserved source).outcome := by
    unfold compressWith
    cases detach source <;> rfl
  have hcompress := h
  unfold compressWith at hcompress
  cases hdetach : detach source with
  | error error =>
    rw [hdetach] at hcompress
    cases hcompress
  | ok detached =>
    rw [hdetach] at hcompress
    obtain ⟨body, f, names, hbody, hsole, hnames, rfl⟩ := detach_eq_ok hdetach
    obtain ⟨pruned, minified, body', small, g, hpruned, hbody', hminified, hsmall, hg, hname, rfl⟩ :=
      Detached.compress_eq_ok hcompress
    have hf := hplain body f hbody hsole
    -- What the minifier is given declares the function still, and so does what it gives.
    obtain ⟨detached, e, k, name, others, hdetached, he, hbare, hstatements, hbare', hfname⟩ :=
      exists_function_of_prune hbody hsole hf hpruned hbody'
    have hkmem : .function k ∈ body'.statements := by
      rw [hstatements]
      exact List.mem_cons_self
    have hgmem : .function g ∈ small.statements := by
      obtain ⟨s, hs, hfunction⟩ := List.mem_filterMap.mp (hg ▸ List.mem_singleton_self g)
      cases s with
      | function g' => exact Option.some.inj hfunction ▸ hs
      | _ => cases hfunction
    have hgname : g.name = some name := by
      obtain ⟨other, hother⟩ :=
        Option.isSome_iff_exists.mp (exists_function_of_statement hsmall hgmem).1
      rw [hother, hfname] at hname
      rw [hother]
      exact congrArg some hname
    have hgplain :=
      hminify hbody' hminified hsmall hkmem hg (hgname.trans hbare'.named.symm) hbare'.isPlain
    -- Its body and the names of the parameters can be read in a new place.
    have hfmem : .function f ∈ body.statements := by
      rw [soleFunction_eq_ok hsole]
      exact List.mem_singleton_self _
    obtain ⟨hparams, hfunction⟩ := isName_of_statement hbody hfmem
    have hbinds := bindsNames_of_boundNames hnames
    obtain ⟨hreads, hpending⟩ := readsBody_of_statement hsmall hgmem hgplain
    obtain ⟨d, hdname, hdparams, hdbody, hd, hparse⟩ :=
      parse_attached (hfunction name hf hfname) (hparams names hbinds) hreads hpending
    have hgetD : f.name.getD "" = name := by rw [hfname]; rfl
    refine ⟨body, detached, body', small, f, e, k, g, d, name, names, pruned, minified, others,
      hbody, hsole, hfname, hbinds, hdetached, he, hbare, hpruned, hbody', hstatements, hbare',
      hminified, hsmall, hg, ?_, hd, hdname, hdparams, by rw [hdbody],
      fun others => (hany others).trans h⟩
    rw [hgetD]
    exact hparse

theorem keepsPlain_ok : KeepsPlain .ok := by
  intro text minified body body' f g hbody hminified hbody' hf hg hname hplain
  obtain rfl := Except.ok.inj hminified
  obtain rfl := Option.some.inj (hbody.symm.trans hbody')
  have hmem : f ∈ body.statements.filterMap Statement.function? :=
    List.mem_filterMap.mpr ⟨_, hf, rfl⟩
  rw [hg, List.mem_singleton] at hmem
  exact hmem ▸ hplain

/-- A function with a default and with a helper that nothing uses, from which nothing can be taken but
these. -/
def smallest : String := "function f(a=1,b)\x7bfunction g()\x7b\x7dreturn a+b\x7d"

/-- On what is left of the function without its parameters and its helper, a minifier has nothing to
do. -/
theorem compress_reattaches_smallest :
    (compactScript "function f()\x7breturn a+b\x7d").toOption =
        some "function f()\x7breturn a+b\x7d" ∧
      ((detach smallest).toOption.bind fun detached => (prune detached.source).toOption) =
        some "function f()\x7breturn a+b\x7d" ∧
      KeepsPlain .ok ∧
      (∀ body f, parseScript? smallest = some body → soleFunction body = .ok f → f.IsPlain) ∧
      (compressWith .ok [] smallest).outcome = .ok "function f(a,b)\x7breturn a+b\x7d" ∧
      ∃ (body detached kept small : Body) (f e k g d : Function) (name : String)
          (names : List String) (pruned minified : String) (others : List Statement),
        parseScript? smallest = some body ∧ soleFunction body = .ok f ∧ f.name = some name ∧
        List.Forall₂ BindsName f.params names ∧
        parseScript? (body.mapFunctions Function.detachedSource) = some detached ∧
        soleFunction detached = .ok e ∧ e.IsBare name ∧
        prune (body.mapFunctions Function.detachedSource) = .ok pruned ∧
        parseScript? pruned = some kept ∧ kept.statements = .function k :: others ∧
        k.IsBare name ∧ (.ok pruned : Outcome String) = .ok minified ∧
        parseScript? minified = some small ∧
        small.statements.filterMap Statement.function? = [g] ∧
        parseScript? "function f(a,b)\x7breturn a+b\x7d" =
          some ⟨[⟨"", "function f(a,b)\x7breturn a+b\x7d", .function d⟩], ""⟩ ∧ d.IsPlain ∧
        d.name = some name ∧ d.params = names.map .bind ∧ d.body.source = g.body.source ∧
        ∀ others, (compressWith .ok others smallest).outcome =
          .ok "function f(a,b)\x7breturn a+b\x7d" := by
  have hsmall : (compactScript "function f()\x7breturn a+b\x7d").toOption =
      some "function f()\x7breturn a+b\x7d" := by decide +kernel
  have hpruned :
      ((detach smallest).toOption.bind fun detached => (prune detached.source).toOption) =
        some "function f()\x7breturn a+b\x7d" := by decide +kernel
  have hcheck : ((parseScript? smallest).bind fun body => (soleFunction body).toOption).all
      (fun f => !f.isAsync && !f.isGenerator) = true := by decide +kernel
  have hplain (body : Body) (f : Function) (hbody : parseScript? smallest = some body)
      (hsole : soleFunction body = .ok f) : f.IsPlain := by
    rw [hbody, Option.bind_some, hsole] at hcheck
    obtain ⟨ha, hg⟩ := Bool.and_eq_true_iff.mp hcheck
    exact ⟨by simpa using ha, by simpa using hg⟩
  have houtcome : (compressWith .ok [] smallest).outcome.toOption =
      some "function f(a,b)\x7breturn a+b\x7d" := by decide +kernel
  have houtcome := Outcome.eq_ok_of_toOption houtcome
  exact ⟨hsmall, hpruned, keepsPlain_ok, hplain, houtcome,
    compress_reattaches keepsPlain_ok hplain houtcome⟩

/-- Without the declaration, what stood behind it is a division, and the function ends in what was a
regular expression. -/
example : ((prune "function f()\x7bctx.a\nfunction g()\x7b\x7d\n/x\x7d;\x7b/.a/i\x7d").toOption.bind
    parseScript?).map (fun body => body.statements.length) = some 3 := by decide +kernel

end Collector
