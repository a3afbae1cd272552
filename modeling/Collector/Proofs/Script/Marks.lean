import Collector.Proofs.Script.Parts
import Mathlib.Data.List.Nodup

/-!
# What the parts of a script leave in its text

Some of what a part is made of stands in the text word for word: names, and accesses to an object
that has a name. `Part.marks` lists these marks for everything inside a part, in the order of the
text, each with the path to the part that leaves it. `Part.words` are the marks without the paths;
the rest of this module says what they are for each construct.
-/

namespace Collector.Script

/-- What stands in a text word for word. -/
inductive Mark where
  /-- A name on its own: a use, a new name or a label. -/
  | word (id : String)
  /-- A name, a point and the name of a property. -/
  | dotted (id key : String)
  /-- A name and a bracket, with the name that stands in the brackets. -/
  | bracketed (id : String) (key : Option String)

/-- The name that an expression gives: of a text the text, of a name that name. -/
def Expr.givenName? : Expr → Option String
  | .string value => some value
  | .template [text] [] => some (text.cooked.getD text.raw)
  | .name id => some id
  | .paren _ inner => inner.givenName?
  | _ => none

namespace Part

/-- The mark that a part leaves itself. It stands in front of those of its parts. -/
def mark? : Part → Option Mark
  | .expr (.name id) => some (.word id)
  | .expr (.member (.name id) field _) => some (.dotted id field)
  | .expr (.index (.name id) value _) => some (.bracketed id value.givenName?)
  | .pattern (.bind id) => some (.word id)
  | .statement (.labelled label _) => some (.word label)
  | _ => none

/-- How many of its first parts the mark of a part covers: that of an access covers its object. -/
def covered : Part → Nat
  | .expr (.member (.name _) _ _) | .expr (.index (.name _) _ _) => 1
  | _ => 0

/-- The numbers of the parts that leave marks of their own. -/
def steps (part : Part) : List Nat := List.range' part.covered (part.parts.length - part.covered)

/-- The marks in a part, in the order of the text, with the paths to what leaves them. -/
def marks (part : Part) : List (List Nat × Mark) :=
  (part.mark?.map fun mark => ([], mark)).toList ++ part.steps.flatMap fun step =>
    match _hinner : part.parts[step]? with
    | some inner => inner.marks.map fun found => (step :: found.1, found.2)
    | none => []
termination_by part.size
decreasing_by exact size_lt _ (List.mem_of_getElem? _hinner)

/-- The marks in a part, in the order of the text. -/
def words (part : Part) : List Mark := part.marks.map Prod.snd

/-- The marks of the part with a number. -/
def marksAt (part : Part) (step : Nat) : List (List Nat × Mark) :=
  (part.parts[step]?.map marks).getD []

theorem marks_eq (part : Part) :
    part.marks = (part.mark?.map fun mark => ([], mark)).toList ++
      part.steps.flatMap fun step => (part.marksAt step).map fun found =>
        (step :: found.1, found.2) := by
  rw [marks]
  congr 2
  funext step
  unfold marksAt
  split
  · rename_i inner hinner
    rw [hinner]
    rfl
  · rename_i hnone
    rw [hnone]
    rfl

/-- Where a mark stands in the tree: at the part itself, or in one of its parts. -/
theorem mem_marks {part : Part} {path : List Nat} {mark : Mark} :
    (path, mark) ∈ part.marks ↔ path = [] ∧ part.mark? = some mark ∨
      ∃ step ∈ part.steps, ∃ rest, (rest, mark) ∈ part.marksAt step ∧ path = step :: rest := by
  rw [marks_eq, List.mem_append, List.mem_flatMap]
  refine or_congr ?_ (exists_congr fun step => and_congr_right fun _ => ?_)
  · cases part.mark? <;> simp [eq_comm]
  · simp [eq_comm, and_comm]

/-- No two marks are left by the same part. -/
theorem paths_nodup (part : Part) : (part.marks.map Prod.fst).Nodup := by
  induction part using induct with
  | h part ih =>
    rw [marks_eq, List.map_append, List.nodup_append, List.map_flatMap, List.nodup_flatMap]
    have front {step : Nat} {path : List Nat} (h : path ∈ ((part.marksAt step).map fun found =>
        (step :: found.1, found.2)).map Prod.fst) : ∃ rest, path = step :: rest := by
      simp only [List.map_map, List.mem_map, Function.comp_apply] at h
      obtain ⟨found, -, rfl⟩ := h
      exact ⟨found.1, rfl⟩
    refine ⟨?_, ⟨fun step _ => ?_, ?_⟩, ?_⟩
    · cases part.mark? <;> simp
    · have hinner : ((part.marksAt step).map Prod.fst).Nodup := by
        unfold marksAt
        cases hinner : part.parts[step]? with
        | none => simp
        | some inner => exact ih inner (List.mem_of_getElem? hinner)
      simpa [Function.comp_def] using
        hinner.map (f := (step :: ·)) fun _ _ h => (List.cons.inj h).2
    · have hsteps : part.steps.Nodup := List.nodup_range' 1
      refine List.Pairwise.imp (fun hne path hfirst hsecond => hne ?_) hsteps
      obtain ⟨_, rfl⟩ := front hfirst
      obtain ⟨_, h⟩ := front hsecond
      exact (List.cons.inj h).1
    · intro path hown _ hpath heq
      obtain ⟨step, _, hpath⟩ := List.mem_flatMap.mp hpath
      obtain ⟨rest, rfl⟩ := front hpath
      cases part.mark? <;> simp_all

/-- A part that is covered by the mark of an access is a name. -/
theorem covered_name {part inner : Part} {step : Nat} (h : part.parts[step]? = some inner)
    (hstep : step ∉ part.steps) : ∃ id, inner = .expr (.name id) := by
  obtain ⟨hlt, -⟩ := List.getElem?_eq_some_iff.mp h
  have hcovered : step < part.covered := by
    simp only [steps, List.mem_range'_1] at hstep
    omega
  unfold covered at hcovered
  split at hcovered
  · obtain rfl := Nat.lt_one_iff.mp hcovered
    exact ⟨_, (Option.some.inj h).symm⟩
  · obtain rfl := Nat.lt_one_iff.mp hcovered
    exact ⟨_, (Option.some.inj h).symm⟩
  · cases hcovered

/-- The marks of all parts from one on. -/
theorem words_from (parts : List Part) (step count : Nat) (h : count + step = parts.length) :
    (List.range' step count).flatMap (fun step => (parts[step]?.map words).getD []) =
      (parts.drop step).flatMap words := by
  induction count generalizing step with
  | zero =>
    rw [List.drop_of_length_le (by omega)]
    rfl
  | succ count ih =>
    have hlt : step < parts.length := by omega
    rw [List.range'_succ, List.flatMap_cons, ih (step + 1) (by omega),
      List.drop_eq_getElem_cons hlt, List.flatMap_cons]
    simp [List.getElem?_eq_getElem hlt]

theorem covered_le (part : Part) : part.covered ≤ part.parts.length := by
  unfold covered
  split <;> simp [parts, Expr.parts]

theorem words_eq (part : Part) :
    part.words = part.mark?.toList ++ (part.parts.drop part.covered).flatMap words := by
  have hcovered := part.covered_le
  rw [← words_from _ _ (part.parts.length - part.covered) (by omega), words, marks_eq,
    List.map_append, List.map_flatMap]
  congr 1
  · cases part.mark? <;> rfl
  · rw [steps]
    congr 1
    funext step
    unfold marksAt
    cases part.parts[step]? <;> simp [words, Function.comp_def]

/-- Where a part leaves no mark itself, its marks are those of its parts. -/
theorem words_of_parts {part : Part} (hmark : part.mark? = none) (hcovered : part.covered = 0) :
    part.words = part.parts.flatMap words := by
  rw [words_eq, hmark, hcovered]
  rfl

end Part

/-! ## The marks of each construct -/

/-- The marks in an expression. -/
abbrev Expr.words (e : Expr) : List Mark := (Part.expr e).words

/-- The marks in the name of a property. -/
abbrev Key.words (k : Key) : List Mark := (Part.key k).words

/-- The marks in a property. -/
abbrev Property.words (p : Property) : List Mark := (Part.property p).words

/-- The marks in a pattern. -/
abbrev Pattern.words (p : Pattern) : List Mark := (Part.pattern p).words

/-- The marks in a function. -/
abbrev Function.words (f : Function) : List Mark := (Part.function f).words

/-- The marks in a class. -/
abbrev Class.words (c : Class) : List Mark := (Part.classOf c).words

/-- The marks in a member of a class. -/
abbrev Member.words (m : Member) : List Mark := (Part.member m).words

/-- The marks in a statement. -/
abbrev Statement.words (s : Statement) : List Mark := (Part.statement s).words

/-- The marks in a branch of a switch. -/
abbrev Case.words (c : Case) : List Mark := (Part.branch c).words

/-- The marks in the statements of a body. -/
def itemWords (items : List Item) : List Mark := items.flatMap fun item => item.statement.words

/-! ### Expressions -/

section Expressions

variable (e first second third : Expr) (items : List Expr)

@[simp] theorem Expr.words_name (id : String) : (Expr.name id).words = [.word id] := by
  rw [words, Part.words_eq]
  rfl

/-- An access to the property of an object that has a name. -/
@[simp] theorem Expr.words_member_name (id field : String) (optional : Bool) :
    (Expr.member (.name id) field optional).words = [.dotted id field] := by
  rw [words, Part.words_eq]
  rfl

/-- An access by a key to an object that has a name. -/
@[simp] theorem Expr.words_index_name (id : String) (optional : Bool) :
    (Expr.index (.name id) e optional).words = .bracketed id e.givenName? :: e.words := by
  rw [words, Part.words_eq]
  simp [Part.mark?, Part.covered, Part.parts, parts]

theorem Expr.words_member {e : Expr} (h : ∀ id, e ≠ .name id) (field : String) (optional : Bool) :
    (Expr.member e field optional).words = e.words := by
  cases e
  case name id => exact absurd rfl (h id)
  all_goals exact (Part.words_of_parts rfl rfl).trans (by simp [Part.parts, parts])

theorem Expr.words_index {e : Expr} (h : ∀ id, e ≠ .name id) (value : Expr) (optional : Bool) :
    (Expr.index e value optional).words = e.words ++ value.words := by
  cases e
  case name id => exact absurd rfl (h id)
  all_goals exact (Part.words_of_parts rfl rfl).trans (by simp [Part.parts, parts])

@[simp] theorem Expr.words_this : Expr.this.words = [] := Part.words_of_parts rfl rfl

@[simp] theorem Expr.words_super : Expr.super.words = [] := Part.words_of_parts rfl rfl

@[simp] theorem Expr.words_null : Expr.null.words = [] := Part.words_of_parts rfl rfl

@[simp] theorem Expr.words_bool (value : Bool) :
    (Expr.bool value).words = [] := Part.words_of_parts rfl rfl

@[simp] theorem Expr.words_number (value : Double) :
    (Expr.number value).words = [] := Part.words_of_parts rfl rfl

@[simp] theorem Expr.words_bigint (digits : String) :
    (Expr.bigint digits).words = [] := Part.words_of_parts rfl rfl

@[simp] theorem Expr.words_string (value : String) :
    (Expr.string value).words = [] := Part.words_of_parts rfl rfl

@[simp] theorem Expr.words_regex (source flags : String) :
    (Expr.regex source flags).words = [] := Part.words_of_parts rfl rfl

@[simp] theorem Expr.words_hole : Expr.hole.words = [] := Part.words_of_parts rfl rfl

@[simp] theorem Expr.words_metaProperty (owner field : String) :
    (Expr.metaProperty owner field).words = [] := Part.words_of_parts rfl rfl

@[simp] theorem Expr.words_template (texts : List Quasi) :
    (Expr.template texts items).words = items.flatMap words :=
  (Part.words_of_parts rfl rfl).trans (by simp [Part.parts, parts, List.flatMap_map])

@[simp] theorem Expr.words_tagged (texts : List Quasi) :
    (Expr.tagged e texts items).words = e.words ++ items.flatMap words :=
  (Part.words_of_parts rfl rfl).trans (by simp [Part.parts, parts, List.flatMap_map])

@[simp] theorem Expr.words_array (comma : Bool) :
    (Expr.array items comma).words = items.flatMap words :=
  (Part.words_of_parts rfl rfl).trans (by simp [Part.parts, parts, List.flatMap_map])

@[simp] theorem Expr.words_spread : (Expr.spread e).words = e.words :=
  (Part.words_of_parts rfl rfl).trans (by simp [Part.parts, parts])

@[simp] theorem Expr.words_object (properties : List Property) (comma : Bool) :
    (Expr.object properties comma).words = properties.flatMap Property.words :=
  (Part.words_of_parts rfl rfl).trans (by simp [Part.parts, parts, List.flatMap_map])

@[simp] theorem Expr.words_function (f : Function) : (Expr.function f).words = f.words :=
  (Part.words_of_parts rfl rfl).trans (by simp [Part.parts, parts])

@[simp] theorem Expr.words_arrow (text : Option String) (f : Function) :
    (Expr.arrow text f).words = f.words :=
  (Part.words_of_parts rfl rfl).trans (by simp [Part.parts, parts])

@[simp] theorem Expr.words_classOf (c : Class) : (Expr.classOf c).words = c.words :=
  (Part.words_of_parts rfl rfl).trans (by simp [Part.parts, parts])

@[simp] theorem Expr.words_paren (text : String) : (Expr.paren text e).words = e.words :=
  (Part.words_of_parts rfl rfl).trans (by simp [Part.parts, parts])

@[simp] theorem Expr.words_privateMember (field : String) (optional : Bool) :
    (Expr.privateMember e field optional).words = e.words :=
  (Part.words_of_parts rfl rfl).trans (by simp [Part.parts, parts])

@[simp] theorem Expr.words_call (optional : Bool) :
    (Expr.call e items optional).words = e.words ++ items.flatMap words :=
  (Part.words_of_parts rfl rfl).trans (by simp [Part.parts, parts, List.flatMap_map])

@[simp] theorem Expr.words_new : (Expr.new e items).words = e.words ++ items.flatMap words :=
  (Part.words_of_parts rfl rfl).trans (by simp [Part.parts, parts, List.flatMap_map])

@[simp] theorem Expr.words_chain : (Expr.chain e).words = e.words :=
  (Part.words_of_parts rfl rfl).trans (by simp [Part.parts, parts])

@[simp] theorem Expr.words_importCall : (Expr.importCall items).words = items.flatMap words :=
  (Part.words_of_parts rfl rfl).trans (by simp [Part.parts, parts, List.flatMap_map])

@[simp] theorem Expr.words_unary (op : UnaryOp) : (Expr.unary op e).words = e.words :=
  (Part.words_of_parts rfl rfl).trans (by simp [Part.parts, parts])

@[simp] theorem Expr.words_update (increment before : Bool) :
    (Expr.update increment before e).words = e.words :=
  (Part.words_of_parts rfl rfl).trans (by simp [Part.parts, parts])

@[simp] theorem Expr.words_binary (op : BinaryOp) :
    (Expr.binary op first second).words = first.words ++ second.words :=
  (Part.words_of_parts rfl rfl).trans (by simp [Part.parts, parts])

@[simp] theorem Expr.words_logical (op : LogicalOp) :
    (Expr.logical op first second).words = first.words ++ second.words :=
  (Part.words_of_parts rfl rfl).trans (by simp [Part.parts, parts])

@[simp] theorem Expr.words_privateIn (field : String) : (Expr.privateIn field e).words = e.words :=
  (Part.words_of_parts rfl rfl).trans (by simp [Part.parts, parts])

@[simp] theorem Expr.words_assign (op : AssignOp) (target : Pattern) :
    (Expr.assign op target e).words = target.words ++ e.words :=
  (Part.words_of_parts rfl rfl).trans (by simp [Part.parts, parts])

@[simp] theorem Expr.words_conditional :
    (Expr.conditional first second third).words = first.words ++ second.words ++ third.words :=
  (Part.words_of_parts rfl rfl).trans (by simp [Part.parts, parts])

@[simp] theorem Expr.words_sequence : (Expr.sequence items).words = items.flatMap words :=
  (Part.words_of_parts rfl rfl).trans (by simp [Part.parts, parts, List.flatMap_map])

@[simp] theorem Expr.words_await : (Expr.await e).words = e.words :=
  (Part.words_of_parts rfl rfl).trans (by simp [Part.parts, parts])

@[simp] theorem Expr.words_yield (delegate : Bool) :
    (Expr.yield delegate items).words = items.flatMap words :=
  (Part.words_of_parts rfl rfl).trans (by simp [Part.parts, parts, List.flatMap_map])

end Expressions

/-! ### Properties and patterns -/

@[simp] theorem Key.words_name (id : String) : (Key.name id).words = [] :=
  Part.words_of_parts rfl rfl

@[simp] theorem Key.words_string (value : String) :
    (Key.string value).words = [] := Part.words_of_parts rfl rfl

@[simp] theorem Key.words_number (value : Double) :
    (Key.number value).words = [] := Part.words_of_parts rfl rfl

@[simp] theorem Key.words_bigint (digits : String) :
    (Key.bigint digits).words = [] := Part.words_of_parts rfl rfl

@[simp] theorem Key.words_privateName (id : String) :
    (Key.privateName id).words = [] := Part.words_of_parts rfl rfl

@[simp] theorem Key.words_computed (value : Expr) : (Key.computed value).words = value.words :=
  (Part.words_of_parts rfl rfl).trans (by simp [Part.parts, parts])

section Properties

variable (key : Key) (value : Expr) (f : Function) (text : String)

@[simp] theorem Property.words_field (shorthand : Bool) :
    (Property.field key value shorthand text).words = key.words ++ value.words :=
  (Part.words_of_parts rfl rfl).trans (by simp [Part.parts, parts])

@[simp] theorem Property.words_method : (Property.method key f text).words = key.words ++ f.words :=
  (Part.words_of_parts rfl rfl).trans (by simp [Part.parts, parts])

@[simp] theorem Property.words_accessor (kind : AccessorKind) :
    (Property.accessor kind key f text).words = key.words ++ f.words :=
  (Part.words_of_parts rfl rfl).trans (by simp [Part.parts, parts])

@[simp] theorem Property.words_spread : (Property.spread value).words = value.words :=
  (Part.words_of_parts rfl rfl).trans (by simp [Part.parts, parts])

@[simp] theorem Property.words_pending (id : String) :
    (Property.pending id value).words = .word id :: value.words :=
  (Part.words_of_parts rfl rfl).trans (by simp [Part.parts, parts])

end Properties

section Patterns

variable (p : Pattern) (items : List Pattern)

@[simp] theorem Pattern.words_bind (id : String) : (Pattern.bind id).words = [.word id] := by
  rw [words, Part.words_eq]
  rfl

@[simp] theorem Pattern.words_hole : Pattern.hole.words = [] := Part.words_of_parts rfl rfl

@[simp] theorem Pattern.words_place (target : Expr) : (Pattern.place target).words = target.words :=
  (Part.words_of_parts rfl rfl).trans (by simp [Part.parts, parts])

@[simp] theorem Pattern.words_array : (Pattern.array items).words = items.flatMap words :=
  (Part.words_of_parts rfl rfl).trans (by simp [Part.parts, parts, List.flatMap_map])

@[simp] theorem Pattern.words_object : (Pattern.object items).words = items.flatMap words :=
  (Part.words_of_parts rfl rfl).trans (by simp [Part.parts, parts, List.flatMap_map])

@[simp] theorem Pattern.words_field (key : Key) (shorthand : Bool) :
    (Pattern.field key p shorthand).words = key.words ++ p.words :=
  (Part.words_of_parts rfl rfl).trans (by simp [Part.parts, parts])

@[simp] theorem Pattern.words_withValue (value : Expr) :
    (Pattern.withValue p value).words = p.words ++ value.words :=
  (Part.words_of_parts rfl rfl).trans (by simp [Part.parts, parts])

@[simp] theorem Pattern.words_rest : (Pattern.rest p).words = p.words :=
  (Part.words_of_parts rfl rfl).trans (by simp [Part.parts, parts])

end Patterns

/-! ### Functions and classes -/

@[simp] theorem Function.words_eq (f : Function) :
    f.words = f.params.flatMap Pattern.words ++ itemWords f.items :=
  (Part.words_of_parts rfl rfl).trans
    (by simp [Part.parts, parts, itemParts, itemWords, List.flatMap_map])

@[simp] theorem Class.words_eq (c : Class) :
    c.words =
      c.decorators.flatMap Expr.words ++ c.heritage.flatMap Expr.words ++
        c.members.flatMap Member.words :=
  (Part.words_of_parts rfl rfl).trans (by simp [Part.parts, parts, List.flatMap_map])

section Members

variable (decorators : List Expr) (isStatic : Bool) (key : Key)

@[simp] theorem Member.words_method (accessor : Option AccessorKind) (f : Function) :
    (Member.method decorators accessor isStatic key f).words =
      decorators.flatMap Expr.words ++ key.words ++ f.words :=
  (Part.words_of_parts rfl rfl).trans (by simp [Part.parts, parts, List.flatMap_map])

@[simp] theorem Member.words_field (isAccessor : Bool) (value : List Expr) :
    (Member.field decorators isStatic isAccessor key value).words =
      decorators.flatMap Expr.words ++ key.words ++ value.flatMap Expr.words :=
  (Part.words_of_parts rfl rfl).trans (by simp [Part.parts, parts, List.flatMap_map])

@[simp] theorem Member.words_staticBlock (statements : List Statement) :
    (Member.staticBlock statements).words = statements.flatMap Statement.words :=
  (Part.words_of_parts rfl rfl).trans (by simp [Part.parts, parts, List.flatMap_map])

end Members

/-! ### Statements -/

section Statements

variable (value : Expr) (values : List Expr) (s : Statement) (statements : List Statement)
  (patterns : List Pattern)

@[simp] theorem Statement.words_labelled (label : String) :
    (Statement.labelled label s).words = .word label :: s.words := by
  rw [words, Part.words_eq]
  simp [Part.mark?, Part.covered, Part.parts, parts]

@[simp] theorem Statement.words_directive (text : String) :
    (Statement.directive text).words = [] := Part.words_of_parts rfl rfl

@[simp] theorem Statement.words_empty : Statement.empty.words = [] := Part.words_of_parts rfl rfl

@[simp] theorem Statement.words_debugger : Statement.debugger.words = [] :=
  Part.words_of_parts rfl rfl

@[simp] theorem Statement.words_imports : Statement.imports.words = [] :=
  Part.words_of_parts rfl rfl

@[simp] theorem Statement.words_continue (label : Option String) :
    (Statement.continue label).words = [] := Part.words_of_parts rfl rfl

@[simp] theorem Statement.words_break (label : Option String) :
    (Statement.break label).words = [] := Part.words_of_parts rfl rfl

@[simp] theorem Statement.words_expression : (Statement.expression value).words = value.words :=
  (Part.words_of_parts rfl rfl).trans (by simp [Part.parts, parts])

@[simp] theorem Statement.words_declare (kind : DeclarationKind) :
    (Statement.declare kind patterns).words = patterns.flatMap Pattern.words :=
  (Part.words_of_parts rfl rfl).trans (by simp [Part.parts, parts, List.flatMap_map])

@[simp] theorem Statement.words_function (f : Function) : (Statement.function f).words = f.words :=
  (Part.words_of_parts rfl rfl).trans (by simp [Part.parts, parts])

@[simp] theorem Statement.words_classOf (c : Class) : (Statement.classOf c).words = c.words :=
  (Part.words_of_parts rfl rfl).trans (by simp [Part.parts, parts])

@[simp] theorem Statement.words_block :
    (Statement.block statements).words = statements.flatMap words :=
  (Part.words_of_parts rfl rfl).trans (by simp [Part.parts, parts, List.flatMap_map])

@[simp] theorem Statement.words_ifElse :
    (Statement.ifElse value s statements).words =
      value.words ++ s.words ++ statements.flatMap words :=
  (Part.words_of_parts rfl rfl).trans (by simp [Part.parts, parts, List.flatMap_map])

@[simp] theorem Statement.words_loop (updates : List Expr) :
    (Statement.loop statements values updates s).words =
      statements.flatMap words ++ values.flatMap Expr.words ++ updates.flatMap Expr.words ++
        s.words :=
  (Part.words_of_parts rfl rfl).trans (by simp [Part.parts, parts, List.flatMap_map])

@[simp] theorem Statement.words_forIn (kind : Option DeclarationKind) :
    (Statement.forIn kind patterns value s).words =
      patterns.flatMap Pattern.words ++ value.words ++ s.words :=
  (Part.words_of_parts rfl rfl).trans (by simp [Part.parts, parts, List.flatMap_map])

@[simp] theorem Statement.words_forOf (isAwait : Bool) (kind : Option DeclarationKind) :
    (Statement.forOf isAwait kind patterns value s).words =
      patterns.flatMap Pattern.words ++ value.words ++ s.words :=
  (Part.words_of_parts rfl rfl).trans (by simp [Part.parts, parts, List.flatMap_map])

@[simp] theorem Statement.words_while : (Statement.while value s).words = value.words ++ s.words :=
  (Part.words_of_parts rfl rfl).trans (by simp [Part.parts, parts])

@[simp] theorem Statement.words_doWhile :
    (Statement.doWhile s value).words = s.words ++ value.words :=
  (Part.words_of_parts rfl rfl).trans (by simp [Part.parts, parts])

@[simp] theorem Statement.words_return :
    (Statement.return values).words = values.flatMap Expr.words :=
  (Part.words_of_parts rfl rfl).trans (by simp [Part.parts, parts, List.flatMap_map])

@[simp] theorem Statement.words_throw : (Statement.throw value).words = value.words :=
  (Part.words_of_parts rfl rfl).trans (by simp [Part.parts, parts])

@[simp] theorem Statement.words_with : (Statement.with value s).words = value.words ++ s.words :=
  (Part.words_of_parts rfl rfl).trans (by simp [Part.parts, parts])

@[simp] theorem Statement.words_switch (cases : List Case) :
    (Statement.switch value cases).words = value.words ++ cases.flatMap Case.words :=
  (Part.words_of_parts rfl rfl).trans (by simp [Part.parts, parts, List.flatMap_map])

@[simp] theorem Statement.words_try (handler finalizer : List Statement) :
    (Statement.try statements patterns handler finalizer).words =
      statements.flatMap words ++ patterns.flatMap Pattern.words ++ handler.flatMap words ++
        finalizer.flatMap words :=
  (Part.words_of_parts rfl rfl).trans (by simp [Part.parts, parts, List.flatMap_map])

@[simp] theorem Statement.words_exports (names : List String) :
    (Statement.exports statements names).words = statements.flatMap words :=
  (Part.words_of_parts rfl rfl).trans (by simp [Part.parts, parts, List.flatMap_map])

end Statements

@[simp] theorem Case.words_branch (test : List Expr) (statements : List Statement) :
    (Case.branch test statements).words =
      test.flatMap Expr.words ++ statements.flatMap Statement.words :=
  (Part.words_of_parts rfl rfl).trans (by simp [Part.parts, parts, List.flatMap_map])

/-- The marks in a body. -/
theorem Body.words_eq (b : Body) : (Part.body b).words = itemWords b.items :=
  (Part.words_of_parts rfl rfl).trans
    (by simp [Part.parts, itemParts, itemWords, List.flatMap_map])

end Collector.Script
