import Collector.Compact.Printer
import Collector.Compact.Reduce
import Collector.Compact.Resolve
import Collector.Function.Artifact
import Collector.Function.Pruning

/-!
# Compression

The smallest form of a function. A collector binds the parameters of a function by name, so they
are taken off before the function is made smaller: inside, their names are outer ones, which nobody
may change. Defaults of parameters are dropped, and the answer is always a plain function.

What makes a text smaller is a parameter of the compression, a minifier. Only the body of the function
that comes out of it is kept, and the parameters are put before it again.
-/

namespace Collector

open Script

/-- The name that a parameter binds, if it is a plain one. -/
def plainName? : Pattern → Option String
  | .bind id => some id
  | .withValue (.bind id) _ => some id
  | _ => none

/-- Whether a parameter takes all values that are left. -/
def isRest : Pattern → Bool
  | .rest _ => true
  | _ => false

/-- The names that the parameters of a function bind. All of them have to be plain. -/
def boundNames (f : Function) : Outcome (List String) :=
  if f.params.any isRest then .error .restParameter
  else
    match f.params.mapM plainName? with
    | some names => .ok names
    | none => .error (.patternParameter (f.name.getD ""))

/-! ## Parameters -/

/-- The text of a function without its parameters. -/
def Script.Function.detachedSource (f : Function) : String :=
  f.head ++ "()" ++ f.gap ++ "\x7b" ++ f.body.source ++ "\x7d"

/-- A function without its parameters, and their names. -/
structure Detached where
  name : String
  params : List String
  /-- The script of the function, in which its parameters are missing. -/
  source : String

/-- Takes the parameters off the only function of a script. -/
def detach (source : String) : Outcome Detached :=
  match parseScript? source with
  | none => .error (.compressionSyntax .input)
  | some body => do
    let f ← soleFunction body
    let params ← boundNames f
    .ok ⟨f.name.getD "", params, body.mapFunctions Function.detachedSource⟩

/-- The names that a collector binds. -/
def reservedNames : List String := ["ctx", "aspects", "subjects", "aspect", "subject", "res"]

/-- The parameters that would not be bound. -/
def Detached.unbound (reserved : List String) (detached : Detached) : List String :=
  detached.params.filter fun param => !reserved.contains param

/-- A function with a name, parameters and the text of its body. -/
def attached (name : String) (params : List String) (body : String) : String :=
  "function " ++ name ++ "(" ++ ",".intercalate params ++ ")\x7b" ++ body ++ "\x7d"

/-! ## The smallest text -/

/-- The names of the variables of a tree: short ones, or the declared ones if code may be run that
mentions them. -/
def namingOf (own : String) (declared : Array String) (tree : Compact.Node) : Compact.Naming :=
  if (Compact.Uses.of declared.size tree).hidden then
    ⟨(List.range declared.size).zip declared.toList⟩
  else Compact.Naming.of own tree

/-- The smallest text of the body of a function without parameters. -/
def compactBody (f : Function) : String :=
  let (tree, declared) := Compact.ofFunction f
  let small := Compact.reduce declared.size tree
  let naming := namingOf (f.name.getD "") declared small
  match small with
  | .node _ [_, _, .node _ statements] => Compact.statementsText naming statements
  | _ => ""

/-- The smallest text of a function without parameters. -/
def compactSource (f : Function) : String :=
  (if f.isAsync then "async " else "") ++ "function" ++ (if f.isGenerator then "*" else " ") ++
    f.name.getD "" ++ "()\x7b" ++ compactBody f ++ "\x7d"

/-- Makes the functions of a script smaller. What else stands in it is left out. -/
def compactScript (source : String) : Outcome String :=
  match parseScript? source with
  | none => .error (.compressionSyntax .prunedBundle)
  | some body =>
    .ok (String.join ((body.statements.filterMap Statement.function?).map compactSource))

/-! ## Compression -/

/-- Makes the text of a function smaller. -/
abbrev Minifier := String → Outcome String

/-- Applies a minifier to what can be read. -/
def Minifier.apply (minify : Minifier) (source : String) : Outcome String :=
  if (parseScript? source).isSome then minify source else .error (.compressionSyntax .prunedBundle)

/-- Prunes a function without its parameters, makes it smaller and puts the parameters back. -/
def Detached.compress (minify : Minifier) (detached : Detached) : Outcome String := do
  let pruned ← prune detached.source
  let minified ← minify.apply pruned
  let parts ← Artifact.ofSource minified
  if parts.name == detached.name then .ok (attached parts.name detached.params parts.body)
  else .error (.functionLost detached.name)

/-- What a compression answers, and the parameters that it reports. -/
structure Compression where
  reported : List String
  outcome : Outcome String

/-- Compresses the only function of a script. -/
def compressWith (minify : Minifier) (reserved : List String) (source : String) : Compression :=
  match detach source with
  | .error error => ⟨[], .error error⟩
  | .ok detached => ⟨detached.unbound reserved, detached.compress minify⟩

/-- Compresses the only function of a script for a collector. -/
def compress (source : String) : Outcome String :=
  (compressWith compactScript reservedNames source).outcome

end Collector
